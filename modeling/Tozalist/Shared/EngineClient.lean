/-
# Tozalist.Shared.EngineClient -- the attempts of one verify call, and how long they take

`EngineClient.verify` of `packages/shared/src/engine/client.ts`: what an attempt comes to,
when another follows it and after which delay, and what the call reports to the breaker.  A
call in flight is a `VerifyCall`; an attempt is cut off after the timeout of its request, and
a delay is as long as it says.

* `VerifyCall.Within` -- how far a call can be from its start in each of its phases;
* `VerifyCall.Within.le_budget` -- no phase lasts beyond `verifyBudgetMs`.
-/
import Mathlib.Tactic.Common
import Tozalist.Shared.CircuitBreaker

namespace Tozalist.Shared

set_option autoImplicit false

/-! ## Attempts -/

/-- `SMTP_TIMEOUT_MS`, the `timeoutMs` of a request with a probe. -/
def smtpTimeoutMs : ℕ := 30000

/-- `MAX_ATTEMPTS`. -/
def maxAttempts : ℕ := 3

/-- `RETRY_DELAYS_MS`. -/
def retryDelaysMs : List ℕ := [200, 800]

/-- `Outcome`. -/
inductive Outcome where
  | ok
  | circuitOpen
  | timeout
  | networkError
  | http4xx
  | http5xx
  | contractError
  deriving DecidableEq, Repr

/-- What the transport comes back with: a response, of which it matters whether its body
parses and meets the contract of the engine, an `EngineTimeoutError`, or anything else
thrown. -/
inductive TransportReply where
  | response (status : ℕ) (meetsContract : Bool)
  | timedOut
  | threw
  deriving DecidableEq, Repr

/-- The three kinds of result of `attemptOnce`. -/
inductive AttemptResult where
  | success
  | clientError
  | serviceFailure (outcome : Outcome)
  deriving DecidableEq, Repr

/-- `attemptOnce`. -/
def attemptOnce : TransportReply → AttemptResult
  | .timedOut => .serviceFailure .timeout
  | .threw => .serviceFailure .networkError
  | .response status meetsContract =>
      if 500 ≤ status then .serviceFailure .http5xx
      else if 400 ≤ status then .clientError
      else if meetsContract then .success
      else .serviceFailure .contractError

/-- `retryable`: a timeout is not. -/
def retryable (outcome : Outcome) : Bool := outcome = .networkError || outcome = .http5xx

/-- The delay after so many attempts. -/
def retryDelay (attempts : ℕ) : ℕ := (retryDelaysMs[attempts - 1]?).getD 800

/-! ## A call in flight -/

/-- `verify`, between two events of its run: the breaker is asked, attempt number `attempts`
is out, the delay after it is on, or the call is over and has reported to the breaker, which
a call that it refused does not. -/
inductive VerifyCall where
  | asking (at_ : ℕ)
  | attempting (attempts since : ℕ)
  | pausing (attempts wakesAt : ℕ)
  | settled (outcome : Outcome) (report : Option Report)
  deriving DecidableEq, Repr

/-- What a call waits for. -/
inductive CallEvent where
  /-- `breaker.acquire` -/
  | breaker (admitted : Bool)
  /-- the transport returns or throws -/
  | reply (reply : TransportReply)
  /-- the delay is over -/
  | wake
  deriving DecidableEq, Repr

namespace VerifyCall

/-- The loop body, once an attempt has its result. -/
def afterAttempt (attempts now : ℕ) : AttemptResult → VerifyCall
  | .success => .settled .ok (some .success)
  | .clientError => .settled .http4xx (some .neutral)
  | .serviceFailure outcome =>
      if ¬ retryable outcome ∨ maxAttempts ≤ attempts then .settled outcome (some .failure)
      else .pausing attempts (now + retryDelay attempts)

/-- The call is at the point at which the event occurs. -/
def Expects (now : ℕ) : VerifyCall → CallEvent → Prop
  | .asking _, .breaker _ => True
  | .attempting _ _, .reply _ => True
  | .pausing _ wakesAt, .wake => wakesAt ≤ now
  | _, _ => False

instance (now : ℕ) (call : VerifyCall) (event : CallEvent) : Decidable (call.Expects now event) :=
  match call, event with
  | .asking _, .breaker _ => inferInstanceAs (Decidable True)
  | .asking _, .reply _ => inferInstanceAs (Decidable False)
  | .asking _, .wake => inferInstanceAs (Decidable False)
  | .attempting _ _, .breaker _ => inferInstanceAs (Decidable False)
  | .attempting _ _, .reply _ => inferInstanceAs (Decidable True)
  | .attempting _ _, .wake => inferInstanceAs (Decidable False)
  | .pausing _ _, .breaker _ => inferInstanceAs (Decidable False)
  | .pausing _ _, .reply _ => inferInstanceAs (Decidable False)
  | .pausing _ wakesAt, .wake => inferInstanceAs (Decidable (wakesAt ≤ now))
  | .settled _ _, .breaker _ => inferInstanceAs (Decidable False)
  | .settled _ _, .reply _ => inferInstanceAs (Decidable False)
  | .settled _ _, .wake => inferInstanceAs (Decidable False)

/-- The call after the event. -/
def after (now : ℕ) : VerifyCall → CallEvent → VerifyCall
  | .asking _, .breaker admitted =>
      if admitted then .attempting 1 now else .settled .circuitOpen none
  | .attempting attempts _, .reply reply => afterAttempt attempts now (attemptOnce reply)
  | .pausing attempts _, .wake => .attempting (attempts + 1) now
  | call, _ => call

/-- The call is still in flight. -/
def InFlight : VerifyCall → Prop
  | .settled _ _ => False
  | _ => True

instance : (call : VerifyCall) → Decidable call.InFlight
  | .asking _ => inferInstanceAs (Decidable True)
  | .attempting _ _ => inferInstanceAs (Decidable True)
  | .pausing _ _ => inferInstanceAs (Decidable True)
  | .settled _ _ => inferInstanceAs (Decidable False)

/-- The clock does not pass this time before the next event of the call. -/
def Pending (timeoutMs now : ℕ) : VerifyCall → Prop
  | .asking at_ => now ≤ at_
  | .attempting _ since => now ≤ since + timeoutMs
  | .pausing _ wakesAt => now ≤ wakesAt
  | .settled _ _ => True

instance (timeoutMs now : ℕ) : (call : VerifyCall) → Decidable (call.Pending timeoutMs now)
  | .asking at_ => inferInstanceAs (Decidable (now ≤ at_))
  | .attempting _ since => inferInstanceAs (Decidable (now ≤ since + timeoutMs))
  | .pausing _ wakesAt => inferInstanceAs (Decidable (now ≤ wakesAt))
  | .settled _ _ => inferInstanceAs (Decidable True)

/-! ## Budgets -/

/-- All attempts and all delays. -/
def verifyBudgetMs (timeoutMs : ℕ) : ℕ := maxAttempts * timeoutMs + retryDelaysMs.sum

example : verifyBudgetMs smtpTimeoutMs = 91000 := rfl

/-- Where a call that started at `start` is at most. -/
def Within (timeoutMs start : ℕ) : VerifyCall → Prop
  | .asking at_ => at_ = start
  | .attempting attempts since =>
      attempts = 1 ∧ since ≤ start ∨
        attempts = 2 ∧ since ≤ start + timeoutMs + 200 ∨
          attempts = 3 ∧ since ≤ start + 2 * timeoutMs + 1000
  | .pausing attempts wakesAt =>
      attempts = 1 ∧ wakesAt ≤ start + timeoutMs + 200 ∨
        attempts = 2 ∧ wakesAt ≤ start + 2 * timeoutMs + 1000
  | .settled _ _ => True

variable {timeoutMs start now : ℕ} {call : VerifyCall}

/-- An attempt is the last, or the delay of its number follows. -/
theorem afterAttempt_cases (attempts now : ℕ) (result : AttemptResult) :
    (∃ outcome report, afterAttempt attempts now result = .settled outcome (some report)) ∨
      (attempts < maxAttempts ∧
        afterAttempt attempts now result = .pausing attempts (now + retryDelay attempts)) := by
  cases result with
  | success => exact .inl ⟨_, _, rfl⟩
  | clientError => exact .inl ⟨_, _, rfl⟩
  | serviceFailure outcome =>
      rw [afterAttempt]
      split
      · exact .inl ⟨_, _, rfl⟩
      · rename_i again
        exact .inr ⟨by omega, rfl⟩

/-- **Every event keeps a call within its budget.** -/
theorem Within.after {event : CallEvent} (within : call.Within timeoutMs start)
    (pending : call.Pending timeoutMs now) (expects : call.Expects now event) :
    (call.after now event).Within timeoutMs start := by
  match call, event with
  | .asking at_, .breaker admitted =>
      have there : at_ = start := within
      have early : now ≤ at_ := pending
      cases admitted with
      | false => trivial
      | true => exact .inl ⟨rfl, by omega⟩
  | .attempting attempts since, .reply reply =>
      have early : now ≤ since + timeoutMs := pending
      rw [VerifyCall.after]
      rcases afterAttempt_cases attempts now (attemptOnce reply) with
        ⟨_, _, over_⟩ | ⟨more, pauses⟩
      · rw [over_]
        trivial
      · rw [pauses]
        rcases within with ⟨rfl, bound⟩ | ⟨rfl, bound⟩ | ⟨rfl, -⟩
        · have delay : retryDelay 1 = 200 := rfl
          exact .inl ⟨rfl, by omega⟩
        · have delay : retryDelay 2 = 800 := rfl
          exact .inr ⟨rfl, by omega⟩
        · exact absurd more (by decide)
  | .pausing attempts wakesAt, .wake =>
      have early : now ≤ wakesAt := pending
      rcases within with ⟨rfl, bound⟩ | ⟨rfl, bound⟩
      · exact .inr (.inl ⟨rfl, by omega⟩)
      · exact .inr (.inr ⟨rfl, by omega⟩)

/-- **The budget of a call**: whatever its attempts come to, it is over in time. -/
theorem Within.le_budget (within : call.Within timeoutMs start) (inFlight : call.InFlight)
    (pending : call.Pending timeoutMs now) : now ≤ start + verifyBudgetMs timeoutMs := by
  have budget : verifyBudgetMs timeoutMs = 3 * timeoutMs + 1000 := rfl
  match call with
  | .asking at_ =>
      have there : at_ = start := within
      have early : now ≤ at_ := pending
      omega
  | .attempting attempts since =>
      have early : now ≤ since + timeoutMs := pending
      rcases within with ⟨-, bound⟩ | ⟨-, bound⟩ | ⟨-, bound⟩ <;> omega
  | .pausing attempts wakesAt =>
      have early : now ≤ wakesAt := pending
      rcases within with ⟨-, bound⟩ | ⟨-, bound⟩ <;> omega
  | .settled _ _ => exact inFlight.elim

/-- An event leaves a call waiting for what comes next. -/
theorem pending_after {event : CallEvent} (expects : call.Expects now event) :
    (call.after now event).Pending timeoutMs now := by
  match call, event with
  | .asking at_, .breaker admitted =>
      cases admitted with
      | false => trivial
      | true => exact Nat.le_add_right now timeoutMs
  | .attempting attempts since, .reply reply =>
      rw [VerifyCall.after]
      rcases afterAttempt_cases attempts now (attemptOnce reply) with
        ⟨_, _, over_⟩ | ⟨-, pauses⟩
      · rw [over_]
        trivial
      · rw [pauses]
        exact Nat.le_add_right now _
  | .pausing attempts wakesAt, .wake => exact Nat.le_add_right now timeoutMs

end VerifyCall

end Tozalist.Shared
