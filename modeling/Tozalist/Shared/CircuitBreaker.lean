/-
# Tozalist.Shared.CircuitBreaker -- the breaker of the engine client, under overlapping calls

`packages/shared/src/engine/circuit-breaker.ts`, and the runs of a client whose calls
overlap: a call acquires, may be refused, and reports one outcome later, in whatever state
the breaker is by then.  Two records are kept beside the breaker that it does not have
itself: the times at which it opened, and the half-open period a call was admitted in.

* `Shut` -- until its cool-down is over, an opened breaker refuses;
* `OneProbe` -- a half-open period has one call of its own in flight at most;
* `shut_iff` -- the second always holds, the first exactly in the runs in which no success
  is reported to a breaker that is open and cooling down.
-/
import Mathlib.Algebra.Order.Ring.Int
import Mathlib.Data.List.Basic
import Tozalist.Theory.Run

namespace Tozalist.Shared

set_option autoImplicit false

open Theory (Run StepOf Transition)

/-! ## The class -/

/-- `CircuitBreakerOptions`, without the clock. -/
structure CircuitBreakerOptions where
  failureThreshold : ℕ
  openDurationMs : Int
  deriving DecidableEq, Repr

/-- The defaults of the constructor. -/
def CircuitBreakerOptions.standard : CircuitBreakerOptions := ⟨5, 30000⟩

/-- `State`; the second is `'open'`. -/
inductive BreakerState where
  | closed
  | opened
  | halfOpen
  deriving DecidableEq, Repr

/-- `CircuitBreaker`. -/
structure CircuitBreaker where
  state : BreakerState
  consecutiveFailures : ℕ
  openedAt : Int
  probeInFlight : Bool
  deriving DecidableEq, Repr

namespace CircuitBreaker

/-- A new breaker. -/
def initial : CircuitBreaker := ⟨.closed, 0, 0, false⟩

/-- `open`, at a time of the clock. -/
def opens (now : Int) (b : CircuitBreaker) : CircuitBreaker :=
  { b with state := .opened, openedAt := now, consecutiveFailures := 0, probeInFlight := false }

/-- The gate of the half-open state. -/
def probe (b : CircuitBreaker) : Bool × CircuitBreaker :=
  if b.state = .halfOpen then
    if b.probeInFlight then (false, b) else (true, { b with probeInFlight := true })
  else (true, b)

/-- `acquire`: whether the call is admitted, and the breaker after. -/
def acquire (o : CircuitBreakerOptions) (now : Int) (b : CircuitBreaker) : Bool × CircuitBreaker :=
  if b.state = .opened then
    if now - b.openedAt < o.openDurationMs then (false, b)
    else { b with state := .halfOpen, probeInFlight := false }.probe
  else b.probe

/-- `recordSuccess`. -/
def recordSuccess (b : CircuitBreaker) : CircuitBreaker :=
  { b with state := .closed, consecutiveFailures := 0, probeInFlight := false }

/-- `recordFailure`. -/
def recordFailure (o : CircuitBreakerOptions) (now : Int) (b : CircuitBreaker) : CircuitBreaker :=
  if b.state = .halfOpen then b.opens now
  else
    let counted := { b with consecutiveFailures := b.consecutiveFailures + 1 }
    if o.failureThreshold ≤ counted.consecutiveFailures then counted.opens now else counted

/-- `recordNeutral`. -/
def recordNeutral (b : CircuitBreaker) : CircuitBreaker :=
  if b.state = .halfOpen then b.recordSuccess else b

end CircuitBreaker

/-- What a call reports, once. -/
inductive Report where
  | success
  | failure
  | neutral
  deriving DecidableEq, Repr

/-- The breaker after a report. -/
def CircuitBreaker.record (o : CircuitBreakerOptions) (now : Int) (b : CircuitBreaker) :
    Report → CircuitBreaker
  | .success => b.recordSuccess
  | .failure => b.recordFailure o now
  | .neutral => b.recordNeutral

/-- The report makes the breaker call `open`. -/
def CircuitBreaker.OpensOn (o : CircuitBreakerOptions) (b : CircuitBreaker) (report : Report) :
    Prop :=
  report = .failure ∧ (b.state = .halfOpen ∨ o.failureThreshold ≤ b.consecutiveFailures + 1)

instance (o : CircuitBreakerOptions) (b : CircuitBreaker) (report : Report) :
    Decidable (b.OpensOn o report) :=
  inferInstanceAs (Decidable (_ ∧ (_ ∨ _)))

/-! ## What the methods do -/

namespace CircuitBreaker

variable {o : CircuitBreakerOptions} {now : Int} {b : CircuitBreaker}

/-- Every way through `acquire`. -/
theorem acquire_cases (o : CircuitBreakerOptions) (now : Int) (b : CircuitBreaker) :
    (b.state = .opened ∧ now < b.openedAt + o.openDurationMs ∧ b.acquire o now = (false, b)) ∨
      (b.state = .opened ∧ b.openedAt + o.openDurationMs ≤ now ∧
        b.acquire o now = (true, { b with state := .halfOpen, probeInFlight := true })) ∨
      (b.state = .halfOpen ∧ b.probeInFlight = true ∧ b.acquire o now = (false, b)) ∨
      (b.state = .halfOpen ∧ b.probeInFlight = false ∧
        b.acquire o now = (true, { b with probeInFlight := true })) ∨
      (b.state = .closed ∧ b.acquire o now = (true, b)) := by
  unfold acquire probe
  cases state : b.state with
  | closed => simp
  | opened =>
      by_cases cooling : now - b.openedAt < o.openDurationMs
      · have early : now < b.openedAt + o.openDurationMs := by omega
        simp [cooling, early]
      · have late : b.openedAt + o.openDurationMs ≤ now := by omega
        simp [cooling, late]
  | halfOpen => cases probing : b.probeInFlight <;> simp

/-- A report opens the breaker, closes it, or leaves state and time of opening alone. -/
theorem record_cases (o : CircuitBreakerOptions) (now : Int) (b : CircuitBreaker)
    (report : Report) :
    (b.OpensOn o report ∧ (b.record o now report).state = .opened ∧
        (b.record o now report).openedAt = now) ∨
      (¬ b.OpensOn o report ∧ (report = .success ∨ report = .neutral ∧ b.state = .halfOpen) ∧
        (b.record o now report).state = .closed ∧
        (b.record o now report).openedAt = b.openedAt) ∨
      (¬ b.OpensOn o report ∧ report ≠ .success ∧ b.state ≠ .halfOpen ∧
        (b.record o now report).state = b.state ∧
        (b.record o now report).openedAt = b.openedAt) := by
  cases report with
  | success => exact .inr (.inl ⟨fun opens => (by cases opens.1), .inl rfl, rfl, rfl⟩)
  | neutral =>
      have closed : ¬ b.OpensOn o .neutral := fun opens => by cases opens.1
      by_cases half : b.state = .halfOpen
      · refine .inr (.inl ⟨closed, .inr ⟨rfl, half⟩, ?_, ?_⟩)
        all_goals
          rw [record, recordNeutral, if_pos half]
          rfl
      · refine .inr (.inr ⟨closed, by simp, half, ?_, ?_⟩)
        all_goals rw [record, recordNeutral, if_neg half]
  | failure =>
      by_cases half : b.state = .halfOpen
      · refine .inl ⟨⟨rfl, .inl half⟩, ?_, ?_⟩
        all_goals
          rw [record, recordFailure, if_pos half]
          rfl
      · by_cases many : o.failureThreshold ≤ b.consecutiveFailures + 1
        · refine .inl ⟨⟨rfl, .inr many⟩, ?_, ?_⟩
          all_goals
            rw [record, recordFailure, if_neg half, if_pos many]
            rfl
        · refine .inr (.inr ⟨fun opens => opens.2.elim half many, by simp, half, ?_, ?_⟩)
          all_goals rw [record, recordFailure, if_neg half, if_neg many]

end CircuitBreaker

/-! ## Overlapping calls -/

/-- A call that was admitted, and the half-open period it was admitted in, if any. -/
structure Call where
  id : ℕ
  period : Option ℕ
  deriving DecidableEq, Repr

/-- A client: its breaker and clock, the calls in flight, the times the breaker opened, and
how many half-open periods there were. -/
structure Client where
  breaker : CircuitBreaker
  now : Int
  calls : List Call
  openings : List Int
  periods : ℕ
  deriving DecidableEq, Repr

inductive ClientAction where
  /-- the clock advances -/
  | tick (later : Int)
  /-- a call asks to be admitted -/
  | acquire (id : ℕ)
  /-- a call that was admitted reports -/
  | report (id : ℕ) (report : Report)
  deriving DecidableEq, Repr

namespace Client

/-- The clock does not go back, ids are of one call, and only calls in flight report. -/
def Allows (s : Client) : ClientAction → Prop
  | .tick later => s.now ≤ later
  | .acquire id => ∀ call ∈ s.calls, call.id ≠ id
  | .report id _ => ∃ call ∈ s.calls, call.id = id

instance (s : Client) : (a : ClientAction) → Decidable (s.Allows a)
  | .tick later => inferInstanceAs (Decidable (s.now ≤ later))
  | .acquire id => inferInstanceAs (Decidable (∀ call ∈ s.calls, call.id ≠ id))
  | .report id _ => inferInstanceAs (Decidable (∃ call ∈ s.calls, call.id = id))

/-- A call that `acquire` admits joins those in flight; it starts a half-open period when it
takes the breaker out of the open state. -/
def letThrough (s : Client) (b : CircuitBreaker) (id : ℕ) : Client :=
  let periods := if s.breaker.state = .opened then s.periods + 1 else s.periods
  { s with
    breaker := b
    calls := s.calls ++ [⟨id, if b.state = .halfOpen then some periods else none⟩]
    periods := periods }

/-- One step. -/
def after (o : CircuitBreakerOptions) (s : Client) : ClientAction → Client
  | .tick later => { s with now := later }
  | .acquire id =>
      match s.breaker.acquire o s.now with
      | (true, b) => s.letThrough b id
      | (false, b) => { s with breaker := b }
  | .report id report =>
      { s with
        breaker := s.breaker.record o s.now report
        calls := s.calls.filter (·.id ≠ id)
        openings := if s.breaker.OpensOn o report then s.openings ++ [s.now] else s.openings }

/-- A new client, at any time. -/
def Initial (s : Client) : Prop :=
  s.breaker = .initial ∧ s.calls = [] ∧ s.openings = [] ∧ s.periods = 0

/-- A call that asks now is refused, unless the cool-down of every opening is over. -/
def Shut (o : CircuitBreakerOptions) (s : Client) : Prop :=
  ∀ t ∈ s.openings, s.now < t + o.openDurationMs → (s.breaker.acquire o s.now).1 = false

/-- While half-open, at most one call of this half-open period is in flight. -/
def OneProbe (s : Client) : Prop :=
  s.breaker.state = .halfOpen → s.calls.countP (·.period = some s.periods) ≤ 1

/-- No success is reported to a breaker that is open and cooling down. -/
def NoEarlySuccess (o : CircuitBreakerOptions) (s : Client) : ClientAction → Prop
  | .report _ .success =>
      ¬ (s.breaker.state = .opened ∧ s.now < s.breaker.openedAt + o.openDurationMs)
  | _ => True

/-! ## The half-open period -/

/-- The call of a half-open period holds the slot. -/
structure Probing (s : Client) : Prop where
  slot : s.breaker.state = .halfOpen → s.breaker.probeInFlight = true
  one : OneProbe s
  past : ∀ call ∈ s.calls, ∀ k ∈ call.period, k ≤ s.periods

theorem Probing.start {s : Client} (initial : Initial s) : Probing s := by
  obtain ⟨breaker, calls, -, -⟩ := initial
  refine ⟨?_, ?_, ?_⟩
  · intro half
    rw [breaker] at half
    cases half
  · intro half
    rw [breaker] at half
    cases half
  · rw [calls]
    exact List.forall_mem_nil _

/-- A call that opens a half-open period is the first of it. -/
theorem Probing.countP_next {s : Client} (probing : Probing s) :
    s.calls.countP (·.period = some (s.periods + 1)) = 0 := by
  rw [List.countP_eq_zero]
  intro call member same
  have bound := probing.past call member (s.periods + 1) (by simpa using same)
  omega

theorem Probing.acquire {o : CircuitBreakerOptions} {s : Client} (probing : Probing s) (id : ℕ) :
    Probing (s.after o (.acquire id)) := by
  rw [after]
  rcases CircuitBreaker.acquire_cases o s.now s.breaker with
    ⟨-, -, eq⟩ | ⟨opened, -, eq⟩ | ⟨-, -, eq⟩ | ⟨half, free, -⟩ | ⟨closed, eq⟩
  · rw [eq]
    exact probing
  · -- the first call of a new period
    rw [eq]
    refine ⟨fun _ => rfl, ?_, ?_⟩
    · intro _
      simp only [letThrough, opened, if_true, List.countP_append, probing.countP_next,
        List.countP_singleton]
      simp
    · simp only [letThrough, opened, if_true]
      refine List.forall_mem_append.2 ⟨fun call member k held => ?_, ?_⟩
      · exact (probing.past call member k held).trans (Nat.le_succ _)
      · exact List.forall_mem_singleton.2 fun k held => (Option.some.inj held).ge
  · rw [eq]
    exact probing
  · rw [probing.slot half] at free
    cases free
  · rw [eq]
    refine ⟨?_, ?_, ?_⟩
    · intro half
      exact absurd half (by simp [letThrough, closed])
    · intro half
      exact absurd half (by simp [letThrough, closed])
    · simp only [letThrough, closed, reduceCtorEq, if_false]
      refine List.forall_mem_append.2 ⟨probing.past, ?_⟩
      exact List.forall_mem_singleton.2 fun k held => by cases held

/-- A report ends a half-open period, whoever it comes from. -/
theorem record_ne_halfOpen (o : CircuitBreakerOptions) (now : Int) (b : CircuitBreaker)
    (report : Report) : (b.record o now report).state ≠ .halfOpen := by
  rcases b.record_cases o now report with ⟨-, state, -⟩ | ⟨-, -, state, -⟩ | ⟨-, -, half, state, -⟩
  · rw [state]
    decide
  · rw [state]
    decide
  · rwa [state]

/-- **At most one probe**: every step keeps the slot and its one call. -/
theorem Probing.step {o : CircuitBreakerOptions} {s : Client} (probing : Probing s)
    (a : ClientAction) : Probing (s.after o a) := by
  cases a with
  | tick later => exact ⟨probing.slot, probing.one, probing.past⟩
  | acquire id => exact probing.acquire id
  | report id report =>
      have ended := record_ne_halfOpen o s.now s.breaker report
      refine ⟨fun half => absurd half ended, fun half => absurd half ended, ?_⟩
      exact fun call member => probing.past call (List.mem_of_mem_filter member)

/-! ## The cool-down -/

/-- A breaker that is not open has served the cool-down of all its openings. -/
structure Cooling (o : CircuitBreakerOptions) (s : Client) : Prop where
  past : ∀ t ∈ s.openings, t ≤ s.now
  latest : s.breaker.state = .opened →
    s.breaker.openedAt ∈ s.openings ∧ ∀ t ∈ s.openings, t ≤ s.breaker.openedAt
  served : s.breaker.state = .opened ∨ ∀ t ∈ s.openings, t + o.openDurationMs ≤ s.now

theorem Cooling.start {o : CircuitBreakerOptions} {s : Client} (initial : Initial s) :
    Cooling o s := by
  obtain ⟨breaker, -, openings, -⟩ := initial
  refine ⟨?_, ?_, .inr ?_⟩
  · rw [openings]
    exact List.forall_mem_nil _
  · intro opened
    rw [breaker] at opened
    cases opened
  · rw [openings]
    exact List.forall_mem_nil _

/-- Served or still open, the breaker is shut for as long as it must be. -/
theorem Cooling.shut {o : CircuitBreakerOptions} {s : Client} (cooling : Cooling o s) :
    Shut o s := by
  intro t member early
  rcases cooling.served with opened | served
  · have later := (cooling.latest opened).2 t member
    rcases CircuitBreaker.acquire_cases o s.now s.breaker with
      ⟨-, -, eq⟩ | ⟨-, over_, -⟩ | ⟨half, -⟩ | ⟨half, -⟩ | ⟨closed, -⟩
    · rw [eq]
    · omega
    · rw [opened] at half
      cases half
    · rw [opened] at half
      cases half
    · rw [opened] at closed
      cases closed
  · have := served t member
    omega

theorem Cooling.acquire {o : CircuitBreakerOptions} {s : Client} (cooling : Cooling o s)
    (id : ℕ) : Cooling o (s.after o (.acquire id)) := by
  rw [after]
  rcases CircuitBreaker.acquire_cases o s.now s.breaker with
    ⟨-, -, eq⟩ | ⟨opened, over_, eq⟩ | ⟨-, -, eq⟩ | ⟨half, -, eq⟩ | ⟨closed, eq⟩
  · rw [eq]
    exact cooling
  · rw [eq]
    refine ⟨cooling.past, fun open_ => (by cases open_), .inr fun t member => ?_⟩
    have later : t ≤ s.breaker.openedAt := (cooling.latest opened).2 t member
    change t + o.openDurationMs ≤ s.now
    omega
  · rw [eq]
    exact cooling
  · rw [eq]
    have served : ∀ t ∈ s.openings, t + o.openDurationMs ≤ s.now :=
      cooling.served.resolve_left fun opened => by simp [half] at opened
    refine ⟨cooling.past, ?_, .inr served⟩
    intro open_
    exact absurd open_ (by simp [letThrough, half])
  · rw [eq]
    exact ⟨cooling.past, cooling.latest, cooling.served⟩

theorem Cooling.report {o : CircuitBreakerOptions} {s : Client} (cooling : Cooling o s)
    (id : ℕ) {report : Report} (late : NoEarlySuccess o s (.report id report)) :
    Cooling o (s.after o (.report id report)) := by
  rcases s.breaker.record_cases o s.now report with
    ⟨opens, state, openedAt⟩ | ⟨keeps, closes, state, -⟩ | ⟨keeps, -, -, state, openedAt⟩
  · -- the breaker opens now
    have openings : (s.after o (.report id report)).openings = s.openings ++ [s.now] := if_pos opens
    have now_ : (s.after o (.report id report)).breaker.openedAt = s.now := openedAt
    refine ⟨?_, ?_, .inl state⟩
    · rw [openings]
      exact List.forall_mem_append.2 ⟨cooling.past, List.forall_mem_singleton.2 le_rfl⟩
    · intro _
      rw [openings, now_]
      refine ⟨List.mem_append_right _ (List.mem_singleton_self _), ?_⟩
      exact List.forall_mem_append.2 ⟨cooling.past, List.forall_mem_singleton.2 le_rfl⟩
  · -- it closes: from the half-open state, or by a success that comes late enough
    have openings : (s.after o (.report id report)).openings = s.openings := if_neg keeps
    refine ⟨openings ▸ cooling.past, ?_, .inr ?_⟩
    · intro opened
      exact absurd (state.symm.trans opened) (by decide)
    · rw [openings]
      rcases cooling.served with opened | served
      · rcases closes with rfl | ⟨-, half⟩
        · intro t member
          have later : t ≤ s.breaker.openedAt := (cooling.latest opened).2 t member
          have due : s.breaker.openedAt + o.openDurationMs ≤ s.now :=
            not_lt.1 fun early => late ⟨opened, early⟩
          change t + o.openDurationMs ≤ s.now
          omega
        · rw [opened] at half
          cases half
      · exact served
  · have openings : (s.after o (.report id report)).openings = s.openings := if_neg keeps
    have same : (s.after o (.report id report)).breaker.openedAt = s.breaker.openedAt := openedAt
    have still : (s.after o (.report id report)).breaker.state = s.breaker.state := state
    refine ⟨openings ▸ cooling.past, ?_, ?_⟩
    · intro opened
      rw [openings, same]
      exact cooling.latest (still.symm.trans opened)
    · rw [openings, still]
      exact cooling.served

/-- **The cool-down** is served in every step without an early success. -/
theorem Cooling.step {o : CircuitBreakerOptions} {s : Client} (cooling : Cooling o s)
    {a : ClientAction} (allowed : s.Allows a) (late : NoEarlySuccess o s a) :
    Cooling o (s.after o a) := by
  cases a with
  | tick later =>
      have forward : s.now ≤ later := allowed
      refine ⟨fun t member => (cooling.past t member).trans forward, cooling.latest, ?_⟩
      exact cooling.served.imp_right fun served t member => (served t member).trans forward
  | acquire id => exact cooling.acquire id
  | report id report => exact cooling.report id late

/-- An early success leaves the breaker closed before its time. -/
theorem Cooling.noEarlySuccess_of_shut {o : CircuitBreakerOptions} {s : Client}
    (cooling : Cooling o s) {a : ClientAction} (shut : Shut o (s.after o a)) :
    NoEarlySuccess o s a := by
  cases a with
  | tick later => trivial
  | acquire id => trivial
  | report id report =>
      cases report with
      | failure => trivial
      | neutral => trivial
      | success =>
          rintro ⟨opened, early⟩
          have refused := shut s.breaker.openedAt (cooling.latest opened).1 early
          cases refused

/-! ## Runs -/

/-- **The breaker under overlapping calls**, for every run and every clock that does not go
back: a half-open period has one call in flight at most, and the breaker is shut from each
opening to the end of its cool-down exactly when no success is reported in between. -/
theorem shut_iff (o : CircuitBreakerOptions) {s t : Client}
    {tr : List (Transition Client ClientAction)} (initial : Initial s)
    (run : Run (StepOf Allows (after o)) s tr t) :
    (∀ e ∈ tr, OneProbe e.source ∧ OneProbe e.target) ∧
      ((∀ e ∈ tr, Shut o e.target) ↔ ∀ e ∈ tr, NoEarlySuccess o e.source e.action) := by
  constructor
  · have held := run.throughout (fun _ _ _ probing step => step.2 ▸ Probing.step probing _)
      (Probing.start initial)
    exact fun e member => ⟨(held.2 e member).1.one, (held.2 e member).2.one⟩
  · refine run.guarded_iff (Cooling o) (fun _ _ t => Shut o t) ?_ ?_ ?_ (Cooling.start initial)
    · rintro s a _ cooling late ⟨allowed, rfl⟩
      exact cooling.step allowed late
    · rintro s a _ cooling late ⟨allowed, rfl⟩
      exact (cooling.step allowed late).shut
    · rintro s a _ cooling ⟨-, rfl⟩ shut
      exact cooling.noEarlySuccess_of_shut shut

/-! ## A late success -/

instance (o : CircuitBreakerOptions) (s : Client) : Decidable (Shut o s) :=
  inferInstanceAs (Decidable (∀ t ∈ s.openings, _ → _))

/-- Two calls overlap; the failure of one opens a breaker of threshold one, and a second
later the other succeeds. -/
def lateSuccess : List ClientAction :=
  [.acquire 1, .acquire 2, .report 1 .failure, .tick 1000, .report 2 .success]

def fresh : Client := ⟨.initial, 0, [], [], 0⟩

/-- A call is admitted one second after the breaker opened for thirty. -/
theorem late_success_admits :
    ∃ tr s, Run (StepOf Allows (after ⟨1, 30000⟩)) fresh tr s ∧
      s.openings = [0] ∧ s.now = 1000 ∧ (s.breaker.acquire ⟨1, 30000⟩ 1000).1 = true ∧
      ¬ Shut ⟨1, 30000⟩ s := by
  have executable : Theory.Executable Allows (after ⟨1, 30000⟩) fresh lateSuccess := by decide
  obtain ⟨tr, run⟩ := executable.run
  exact ⟨tr, _, run, by decide, by decide, by decide, by decide⟩

theorem shut_iff_lateSuccess :
    ∃ tr, Run (StepOf Allows (after ⟨1, 30000⟩)) fresh tr
        (lateSuccess.foldl (after ⟨1, 30000⟩) fresh) ∧
      ((∀ e ∈ tr, Shut ⟨1, 30000⟩ e.target) ↔
        ∀ e ∈ tr, NoEarlySuccess ⟨1, 30000⟩ e.source e.action) := by
  have executable : Theory.Executable Allows (after ⟨1, 30000⟩) fresh lateSuccess := by decide
  obtain ⟨tr, run⟩ := executable.run
  exact ⟨tr, run, (shut_iff ⟨1, 30000⟩ ⟨rfl, rfl, rfl, rfl⟩ run).2⟩

end Client

end Tozalist.Shared
