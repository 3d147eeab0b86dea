/-
# Tozalist.Shared.Webhooks -- the contract of the webhooks

The event names and the retry schedule of `packages/shared/src/webhooks.ts`.
-/
import Mathlib.Data.Nat.Notation
import Mathlib.Tactic.Common

namespace Tozalist.Shared

set_option autoImplicit false

/-- `WebhookEvent`. -/
inductive WebhookEvent where
  | batchCompleted
  | batchFailed
  deriving DecidableEq, Repr

/-- The name of an event in `WEBHOOK_EVENTS`. -/
def WebhookEvent.name : WebhookEvent → String
  | .batchCompleted => "batch.completed"
  | .batchFailed => "batch.failed"

/-- `WEBHOOK_RETRY_SCHEDULE_MS`. -/
def webhookRetryScheduleMs : List ℕ := [60000, 300000, 1800000, 7200000, 21600000]

/-- `WEBHOOK_MAX_ATTEMPTS`. -/
def webhookMaxAttempts : ℕ := webhookRetryScheduleMs.length + 1

/-- Every attempt but the last has an entry of its own in the schedule. -/
theorem schedule_of_lt {attempts : ℕ} (positive : 0 < attempts)
    (more : attempts < webhookMaxAttempts) :
    ∃ delay, webhookRetryScheduleMs[attempts - 1]? = some delay := by
  have within : attempts - 1 < webhookRetryScheduleMs.length := by
    rw [webhookMaxAttempts] at more
    omega
  exact ⟨_, List.getElem?_eq_getElem within⟩

end Tozalist.Shared
