/-
# Tozalist.Worker.DomainCircuit -- when a domain's circuit is open

`apps/worker/src/smtp/domain-circuit.ts`: the script and the commands of `DomainCircuit` on the
two keys of one domain, a counter of failures and a marker, each with a lifetime.

`failuresBefore` says what a run of failures is, looking back over the calls and knowing no
keys: it goes back to the last success, to the last failure that completed a run, or to the last
gap.  `circuit_exact` is the law that ties the two together: the marker is there exactly while
some failure that completed a run is recent enough.
-/
import Mathlib.Data.List.Induction
import Tozalist.Redis.Keys

namespace Tozalist.Worker

set_option autoImplicit false

open Redis (Lasting)

/-! ## The class -/

/-- `DomainCircuitOptions`, as the constructor keeps them. -/
structure DomainCircuitOptions where
  threshold : ℕ
  openMs : ℕ
  failureTtlMs : ℕ
  deriving DecidableEq, Repr

/-- The constructor; a streak of failures lasts as long as the circuit by default. -/
def DomainCircuitOptions.given (threshold openMs failureTtlMs : Option ℕ) :
    DomainCircuitOptions where
  threshold := threshold.getD 3
  openMs := openMs.getD (60 * 60 * 1000)
  failureTtlMs := failureTtlMs.getD (openMs.getD (60 * 60 * 1000))

/-- The keys of a domain. -/
structure DomainKeys where
  /-- the counter of consecutive failures -/
  fails : Option (Lasting ℕ)
  /-- the mark of an open circuit -/
  opened : Option (Lasting String)
  deriving DecidableEq, Repr

/-- No key exists. -/
def DomainKeys.none : DomainKeys := ⟨.none, .none⟩

/-- `RECORD_FAILURE_SCRIPT`. -/
def recordFailureScript (o : DomainCircuitOptions) (now : ℕ) (keys : DomainKeys) :
    ℕ × DomainKeys :=
  let count := Lasting.incr (Lasting.live now keys.fails)
  let fails := count.pexpire now o.failureTtlMs
  if o.threshold ≤ count.value then
    (1, { fails := .none, opened := some (Lasting.setPx now o.openMs "1") })
  else (0, { keys with fails := some fails })

/-- `isOpen`. -/
def isOpen (now : ℕ) (keys : DomainKeys) : Bool := (Lasting.live now keys.opened).isSome

/-- `recordFailure`: whether this failure opened the circuit. -/
def recordFailure (o : DomainCircuitOptions) (now : ℕ) (keys : DomainKeys) : Bool × DomainKeys :=
  let (opened, keys) := recordFailureScript o now keys
  (opened = 1, keys)

/-- `recordSuccess`. -/
def recordSuccess (keys : DomainKeys) : DomainKeys := { keys with fails := .none }

/-! ## Calls -/

/-- A call on the domain. -/
inductive CircuitCall where
  | recordFailure
  | recordSuccess
  | isOpen
  deriving DecidableEq, Repr

/-- Calls with their times. -/
abbrev Calls : Type := List (ℕ × CircuitCall)

/-- The keys after a call. -/
def DomainKeys.call (o : DomainCircuitOptions) (keys : DomainKeys) (c : ℕ × CircuitCall) :
    DomainKeys :=
  match c.2 with
  | .recordFailure => (Worker.recordFailure o c.1 keys).2
  | .recordSuccess => Worker.recordSuccess keys
  | .isOpen => keys

/-- The keys after the calls, oldest first, on a domain that had none. -/
def keysAfter (o : DomainCircuitOptions) (calls : Calls) : DomainKeys :=
  calls.foldl (DomainKeys.call o) .none

theorem keysAfter_concat (o : DomainCircuitOptions) (calls : Calls) (c : ℕ × CircuitCall) :
    keysAfter o (calls ++ [c]) = (keysAfter o calls).call o c := by
  rw [keysAfter, List.foldl_append]
  rfl

/-! ## Runs of failures -/

/-- How many failures of the run that would go on at `next` there are in the past, newest first.
It goes back to the last success, the last completed run, or the last gap. -/
def failuresBefore (o : DomainCircuitOptions) : Calls → ℕ → ℕ
  | [], _ => 0
  | (_, .recordSuccess) :: _, _ => 0
  | (_, .isOpen) :: past, next => failuresBefore o past next
  | (t, .recordFailure) :: past, next =>
      if t + o.failureTtlMs ≤ next then 0
      else if failuresBefore o past t + 1 = o.threshold then 0
      else failuresBefore o past t + 1

/-- A failure at `t`, after these calls, completes a run. -/
def CompletesRun (o : DomainCircuitOptions) (before : Calls) (t : ℕ) : Prop :=
  failuresBefore o before.reverse t + 1 = o.threshold

instance (o : DomainCircuitOptions) (before : Calls) (t : ℕ) : Decidable (CompletesRun o before t) :=
  inferInstanceAs (Decidable (_ = _))

/-- Calls at times that do not go back, none after `now`. -/
def UpTo (now : ℕ) (calls : Calls) : Prop :=
  calls.Pairwise (fun c d => c.1 ≤ d.1) ∧ ∀ c ∈ calls, c.1 ≤ now

instance (now : ℕ) (calls : Calls) : Decidable (UpTo now calls) :=
  inferInstanceAs (Decidable (_ ∧ _))

/-- A run that goes on is not complete. -/
theorem failuresBefore_lt {o : DomainCircuitOptions} (positive : 1 ≤ o.threshold) (past : Calls)
    (next : ℕ) : failuresBefore o past next < o.threshold := by
  induction past generalizing next with
  | nil => exact positive
  | cons c past ih =>
      obtain ⟨t, call⟩ := c
      cases call with
      | recordSuccess => exact positive
      | isOpen => exact ih next
      | recordFailure =>
          rw [failuresBefore]
          have earlier := ih t
          split
          · exact positive
          · split
            · exact positive
            · omega

/-! ## The law -/

/-- A recent failure among the calls completed a run. -/
def RecentRun (o : DomainCircuitOptions) (calls : Calls) (now : ℕ) : Prop :=
  ∃ before t after, calls = before ++ (t, .recordFailure) :: after ∧ CompletesRun o before t ∧
    now < t + o.openMs ∧ t ≤ now

theorem UpTo.concat {now : ℕ} {calls : Calls} {c : ℕ × CircuitCall}
    (upTo : UpTo now (calls ++ [c])) : UpTo c.1 calls ∧ UpTo now calls ∧ c.1 ≤ now := by
  obtain ⟨sorted, times⟩ := upTo
  obtain ⟨earlier, -, last⟩ := List.pairwise_append.1 sorted
  have within := fun d member => times d (List.mem_append_left _ member)
  exact ⟨⟨earlier, fun d member => last d member c (List.mem_singleton.2 rfl)⟩, ⟨earlier, within⟩,
    times c (List.mem_append_right _ (List.mem_singleton.2 rfl))⟩

theorem recentRun_concat {o : DomainCircuitOptions} {calls : Calls} {c : ℕ × CircuitCall}
    {now : ℕ} :
    RecentRun o (calls ++ [c]) now ↔ RecentRun o calls now ∨
      (c.2 = .recordFailure ∧ CompletesRun o calls c.1 ∧ now < c.1 + o.openMs ∧ c.1 ≤ now) := by
  constructor
  · rintro ⟨before, t, after, cut, completes, recent, past⟩
    rcases List.eq_nil_or_concat after with rfl | ⟨after, d, rfl⟩
    · obtain ⟨rfl, last⟩ := List.append_inj' cut rfl
      obtain rfl := List.singleton_inj.1 last
      exact .inr ⟨rfl, completes, recent, past⟩
    · rw [List.concat_eq_append, ← List.cons_append, ← List.append_assoc] at cut
      exact .inl ⟨before, t, after, (List.append_inj' cut rfl).1, completes, recent, past⟩
  · rintro (⟨before, t, after, rfl, completes, recent, past⟩ | ⟨failure, completes, recent, past⟩)
    · exact ⟨before, t, after ++ [c], by rw [List.append_assoc]; rfl, completes, recent, past⟩
    · obtain ⟨t, call⟩ := c
      obtain rfl : call = .recordFailure := failure
      exact ⟨calls, t, [], rfl, completes, recent, past⟩

/-- What the keys are in terms of the calls, at all times to come. -/
structure KeysMatch (o : DomainCircuitOptions) (calls : Calls) (keys : DomainKeys) : Prop where
  count : ∀ now, UpTo now calls →
    ((Lasting.live now keys.fails).map (·.value)).getD 0 = failuresBefore o calls.reverse now
  marker : ∀ now, UpTo now calls → (isOpen now keys = true ↔ RecentRun o calls now)

section Steps

variable {o : DomainCircuitOptions} {calls : Calls} {keys : DomainKeys} {t : ℕ}

/-- The count that the script finds is one more than the failures before. -/
theorem KeysMatch.incr (keysMatch : KeysMatch o calls keys) (upTo : UpTo t calls) :
    (Lasting.incr (Lasting.live t keys.fails)).value =
      failuresBefore o calls.reverse t + 1 := by
  rw [← keysMatch.count t upTo]
  cases Lasting.live t keys.fails <;> rfl

/-- **The script, in terms of the calls**: a run is complete, or one failure longer. -/
theorem KeysMatch.script (keysMatch : KeysMatch o calls keys) (positive : 1 ≤ o.threshold)
    (upTo : UpTo t calls) :
    recordFailureScript o t keys =
      if CompletesRun o calls t then
        (1, ⟨none, some ⟨"1", some (t + o.openMs)⟩⟩)
      else (0, ⟨some ⟨failuresBefore o calls.reverse t + 1, some (t + o.failureTtlMs)⟩,
        keys.opened⟩) := by
  have count := keysMatch.incr upTo
  have below := failuresBefore_lt positive calls.reverse t
  have completes : o.threshold ≤ failuresBefore o calls.reverse t + 1 ↔ CompletesRun o calls t := by
    unfold CompletesRun
    omega
  unfold recordFailureScript
  simp only [count, completes, Lasting.pexpire, Lasting.setPx]

theorem KeysMatch.recordFailure (keysMatch : KeysMatch o calls keys) (positive : 1 ≤ o.threshold)
    (upTo : UpTo t calls) :
    KeysMatch o (calls ++ [(t, .recordFailure)]) (Worker.recordFailure o t keys).2 := by
  have script := keysMatch.script positive upTo
  unfold Worker.recordFailure
  rw [script]
  by_cases completes : CompletesRun o calls t
  · rw [if_pos completes]
    constructor
    · intro now later
      rw [List.reverse_append]
      show 0 = failuresBefore o ((t, .recordFailure) :: calls.reverse) now
      rw [failuresBefore, if_pos (show _ + 1 = _ from completes), ite_self]
    · intro now later
      obtain ⟨-, before, after⟩ := later.concat
      rw [recentRun_concat]
      constructor
      · intro marked
        have alive : now < t + o.openMs := by
          by_contra over_
          simp [isOpen, over_] at marked
        exact .inr ⟨rfl, completes, alive, after⟩
      · intro recent
        have alive : now < t + o.openMs := by
          rcases recent with ⟨earlier, s, rest, rfl, -, recent, -⟩ | ⟨-, -, recent, -⟩
          · have order := upTo.2 (s, .recordFailure)
              (List.mem_append_right _ List.mem_cons_self)
            exact recent.trans_le (Nat.add_le_add_right order _)
          · exact recent
        simp [isOpen, alive]
  · rw [if_neg completes]
    constructor
    · intro now later
      rw [List.reverse_append]
      show _ = failuresBefore o ((t, .recordFailure) :: calls.reverse) now
      rw [failuresBefore, if_neg (show ¬ _ + 1 = _ from completes)]
      dsimp only
      rw [Lasting.live_lasting]
      by_cases alive : now < t + o.failureTtlMs
      · rw [if_pos alive, if_neg (Nat.not_le.2 alive)]
        rfl
      · rw [if_neg alive, if_pos (Nat.not_lt.1 alive)]
        rfl
    · intro now later
      obtain ⟨-, before, -⟩ := later.concat
      rw [recentRun_concat, or_iff_left fun new => completes new.2.1]
      exact keysMatch.marker now before

theorem KeysMatch.recordSuccess (keysMatch : KeysMatch o calls keys) :
    KeysMatch o (calls ++ [(t, .recordSuccess)]) (Worker.recordSuccess keys) := by
  constructor
  · intro now later
    rw [List.reverse_append]
    rfl
  · intro now later
    rw [recentRun_concat, or_iff_left fun new => (by cases new.1)]
    exact keysMatch.marker now later.concat.2.1

theorem KeysMatch.isOpen (keysMatch : KeysMatch o calls keys) :
    KeysMatch o (calls ++ [(t, .isOpen)]) keys := by
  constructor
  · intro now later
    rw [List.reverse_append]
    exact keysMatch.count now later.concat.2.1
  · intro now later
    rw [recentRun_concat, or_iff_left fun new => (by cases new.1)]
    exact keysMatch.marker now later.concat.2.1

end Steps

/-- **After any calls** the keys are what the calls make of them. -/
theorem keysAfter_match {o : DomainCircuitOptions} (positive : 1 ≤ o.threshold) {calls : Calls}
    {now : ℕ} (upTo : UpTo now calls) : KeysMatch o calls (keysAfter o calls) := by
  induction calls using List.reverseRecOn generalizing now with
  | nil =>
      refine ⟨fun _ _ => rfl, fun _ _ => iff_of_false (fun no => (by cases no)) ?_⟩
      rintro ⟨before, t, after, cut, -⟩
      cases before <;> cases cut
  | append_singleton calls c ih =>
      obtain ⟨before, -, -⟩ := upTo.concat
      have sofar := ih before
      obtain ⟨t, call⟩ := c
      rw [keysAfter_concat]
      cases call with
      | recordFailure => exact sofar.recordFailure positive before
      | recordSuccess => exact sofar.recordSuccess
      | isOpen => exact sofar.isOpen

/-- **A circuit is open while a run of failures is recent.**  A success never closes it, a failure
that completes no run never opens it, and `recordFailure` says whether it completed one. -/
theorem circuit_exact (o : DomainCircuitOptions) (positive : 1 ≤ o.threshold) (calls : Calls)
    (t : ℕ) (upTo : UpTo t calls) :
    (isOpen t (keysAfter o calls) = true ↔ RecentRun o calls t) ∧
    (∀ now, t ≤ now →
      isOpen now (keysAfter o (calls ++ [(t, .recordSuccess)])) =
        isOpen now (keysAfter o calls)) ∧
    (¬ CompletesRun o calls t → ∀ now, t ≤ now →
      isOpen now (keysAfter o (calls ++ [(t, .recordFailure)])) =
        isOpen now (keysAfter o calls)) ∧
    ((recordFailure o t (keysAfter o calls)).1 = true ↔ CompletesRun o calls t) := by
  have keysMatch := keysAfter_match positive upTo
  have script := keysMatch.script positive upTo
  refine ⟨keysMatch.marker t upTo, ?_, ?_, ?_⟩
  · intro now _
    rw [keysAfter_concat]
    rfl
  · intro incomplete now _
    rw [keysAfter_concat]
    show isOpen now (recordFailureScript o t (keysAfter o calls)).2 = _
    rw [script, if_neg incomplete]
    rfl
  · unfold recordFailure
    rw [script]
    by_cases completes : CompletesRun o calls t
    · rw [if_pos completes]
      exact iff_of_true rfl completes
    · rw [if_neg completes]
      exact iff_of_false (fun no => (by cases no)) completes

/-- Two failures, a success, and then three failures, the last of them an hour ago less one
millisecond. -/
theorem circuit_exact_third_failure :
    isOpen 3600004 (keysAfter (.given none none none)
      [(0, .recordFailure), (1, .recordFailure), (2, .recordSuccess), (3, .recordFailure),
        (4, .recordFailure), (5, .recordFailure)]) = true :=
  (circuit_exact (.given none none none) (by decide) _ 3600004 (by decide)).1.2
    ⟨[(0, .recordFailure), (1, .recordFailure), (2, .recordSuccess), (3, .recordFailure),
      (4, .recordFailure)], 5, [], rfl, by decide, by decide, by decide⟩

end Tozalist.Worker
