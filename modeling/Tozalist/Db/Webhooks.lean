/-
# Tozalist.Db.Webhooks -- endpoints, and the deliveries to them

The two webhook tables and the operations of `packages/db/src/webhooks.ts` that the worker
uses: the fan-out to the endpoints of an event, and the load and the record of a delivery's
attempt.  `recordDeliveryAttempt` updates the row by its id alone: it adds one to what the row
counts, appends what the caller made of the row it had loaded, and sets the status.
-/
import Tozalist.Db.Schema

namespace Tozalist.Db

set_option autoImplicit false

/-! ## Rows -/

/-- `webhook_endpoints`. -/
structure WebhookEndpoint where
  id : Uuid
  orgId : Uuid
  url : String
  secret : String
  events : List String
  active : Bool
  deletedAt : Option Timestamp
  deriving DecidableEq, Repr

/-- `webhook_delivery_status`. -/
inductive DeliveryStatus where
  | pending
  | delivered
  | failed
  deriving DecidableEq, Repr

/-- `AttemptRecord`; `at` is the ISO text of its date. -/
structure AttemptRecord where
  attempt : ℕ
  at_ : Date
  statusCode : Option ℕ
  error : Option String
  deriving DecidableEq, Repr

/-- The `data` of a batch event. -/
structure BatchEventData where
  batchId : Uuid
  status : String
  totalRows : ℕ
  verdictCounts : Distribution
  deriving DecidableEq, Repr

/-- The `payload` of a delivery. -/
structure WebhookPayload where
  event : String
  data : BatchEventData
  deriving DecidableEq, Repr

/-- `webhook_deliveries`. -/
structure WebhookDelivery where
  id : Uuid
  endpointId : Uuid
  eventType : String
  payload : WebhookPayload
  status : DeliveryStatus
  attempts : ℕ
  attemptLog : List AttemptRecord
  lastError : Option String
  nextRetryAt : Option Date
  expiresAt : Date
  deriving DecidableEq, Repr

/-- The database with the webhook tables; endpoints have a primary key. -/
structure WebhookDatabase extends Database where
  webhookEndpoints : List WebhookEndpoint
  webhookDeliveries : List WebhookDelivery
  endpointIds : (webhookEndpoints.map (·.id)).Nodup

/-! ## Fan-out -/

/-- The endpoint is active, undeleted, and subscribed to the event. -/
def WebhookEndpoint.Hears (e : WebhookEndpoint) (orgId : Uuid) (event : String) : Prop :=
  e.orgId = orgId ∧ e.active = true ∧ e.deletedAt = none ∧ event ∈ e.events

instance (e : WebhookEndpoint) (orgId : Uuid) (event : String) : Decidable (e.Hears orgId event) :=
  inferInstanceAs (Decidable (_ ∧ _ ∧ _ ∧ _))

/-- `findEndpointsForEvent`; the join finds one organisation at most. -/
def findEndpointsForEvent (db : WebhookDatabase) (orgId : Uuid) (event : String) : List Uuid :=
  (db.webhookEndpoints.filter fun e =>
    e.Hears orgId event ∧ ∃ o ∈ db.organizations, o.id = e.orgId ∧ o.Active).map (·.id)

/-- The input of `createWebhookDelivery`. -/
structure DeliveryInput where
  id : Uuid
  endpointId : Uuid
  eventType : String
  payload : WebhookPayload
  expiresAt : Date
  deriving DecidableEq, Repr

/-- The row that `createWebhookDelivery` inserts. -/
def DeliveryInput.row (input : DeliveryInput) : WebhookDelivery :=
  { id := input.id
    endpointId := input.endpointId
    eventType := input.eventType
    payload := input.payload
    status := .pending
    attempts := 0
    attemptLog := []
    lastError := none
    nextRetryAt := none
    expiresAt := input.expiresAt }

/-- `createWebhookDelivery`. -/
def createWebhookDelivery (db : WebhookDatabase) (input : DeliveryInput) : WebhookDatabase :=
  { db with webhookDeliveries := db.webhookDeliveries ++ [input.row] }

/-! ## Attempts -/

/-- The row of a delivery. -/
def WebhookDatabase.delivery? (db : WebhookDatabase) (deliveryId : Uuid) : Option WebhookDelivery :=
  db.webhookDeliveries.find? fun d => d.id = deliveryId

/-- `DeliveryForProcessing`. -/
structure DeliveryForProcessing where
  delivery : WebhookDelivery
  endpointId : Uuid
  url : String
  secret : String
  deriving DecidableEq, Repr

/-- `getDeliveryForProcessing`. -/
def getDeliveryForProcessing (db : WebhookDatabase) (deliveryId : Uuid) :
    Option DeliveryForProcessing := do
  let delivery ← db.delivery? deliveryId
  let endpoint ← db.webhookEndpoints.find? fun e => e.id = delivery.endpointId
  let org ← db.organizations.find? fun o => o.id = endpoint.orgId
  if delivery.status ≠ .pending then none
  else if endpoint.active = false ∨ endpoint.deletedAt ≠ none ∨ ¬ org.Active then none
  else some ⟨delivery, endpoint.id, endpoint.url, endpoint.secret⟩

/-- What is loaded is the row, and it is pending. -/
theorem getDeliveryForProcessing_eq {db : WebhookDatabase} {deliveryId : Uuid}
    {loaded : DeliveryForProcessing}
    (found : getDeliveryForProcessing db deliveryId = some loaded) :
    db.delivery? deliveryId = some loaded.delivery ∧ loaded.delivery.status = .pending := by
  simp only [getDeliveryForProcessing, Option.bind_eq_bind, Option.bind_eq_some_iff] at found
  obtain ⟨delivery, row, endpoint, -, org, -, found⟩ := found
  split at found
  · cases found
  · rename_i pending
    split at found
    · cases found
    · obtain rfl := Option.some.inj found
      exact ⟨row, not_not.1 pending⟩

/-- `DeliveryOutcome`. -/
inductive DeliveryOutcome where
  | delivered (record : AttemptRecord)
  | retry (nextRetryAt : Date) (record : AttemptRecord)
  | failed (record : AttemptRecord)
  deriving DecidableEq, Repr

def DeliveryOutcome.record : DeliveryOutcome → AttemptRecord
  | .delivered record => record
  | .retry _ record => record
  | .failed record => record

/-- The row after `recordDeliveryAttempt`. -/
def WebhookDelivery.recorded (d : WebhookDelivery) (outcome : DeliveryOutcome) : WebhookDelivery :=
  let base := { d with
    attempts := d.attempts + 1
    attemptLog := d.attemptLog ++ [outcome.record] }
  match outcome with
  | .delivered _ => { base with status := .delivered, nextRetryAt := none, lastError := none }
  | .retry nextRetryAt record =>
      { base with status := .pending, nextRetryAt := some nextRetryAt, lastError := record.error }
  | .failed record =>
      { base with status := .failed, nextRetryAt := none, lastError := record.error }

/-- `recordDeliveryAttempt`. -/
def recordDeliveryAttempt (db : WebhookDatabase) (deliveryId : Uuid) (outcome : DeliveryOutcome) :
    WebhookDatabase :=
  { db with
    webhookDeliveries := db.webhookDeliveries.map fun d =>
      if d.id = deliveryId then d.recorded outcome else d }

@[simp] theorem recorded_id (d : WebhookDelivery) (outcome : DeliveryOutcome) :
    (d.recorded outcome).id = d.id := by
  cases outcome <;> rfl

@[simp] theorem recorded_attempts (d : WebhookDelivery) (outcome : DeliveryOutcome) :
    (d.recorded outcome).attempts = d.attempts + 1 := by
  cases outcome <;> rfl

@[simp] theorem recorded_attemptLog (d : WebhookDelivery) (outcome : DeliveryOutcome) :
    (d.recorded outcome).attemptLog = d.attemptLog ++ [outcome.record] := by
  cases outcome <;> rfl

/-- A record is written to the row as it is by then. -/
theorem delivery?_recordDeliveryAttempt (db : WebhookDatabase) (deliveryId : Uuid)
    (outcome : DeliveryOutcome) :
    (recordDeliveryAttempt db deliveryId outcome).delivery? deliveryId =
      (db.delivery? deliveryId).map (·.recorded outcome) := by
  rw [WebhookDatabase.delivery?, WebhookDatabase.delivery?, recordDeliveryAttempt, List.find?_map]
  have select : ((fun d : WebhookDelivery => decide (d.id = deliveryId)) ∘ fun d =>
      if d.id = deliveryId then d.recorded outcome else d) =
        fun d => decide (d.id = deliveryId) := by
    funext d
    by_cases here : d.id = deliveryId <;> simp [here]
  rw [select]
  cases found : db.webhookDeliveries.find? fun d => d.id = deliveryId with
  | none => rfl
  | some d =>
      have here : d.id = deliveryId := by simpa using List.find?_some found
      simp [here]

end Tozalist.Db
