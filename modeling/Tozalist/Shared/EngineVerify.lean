/-
# Tozalist.Shared.EngineVerify -- what one verify call does, for whatever its transport brings

`EngineClient.verify` and `attemptOnce` of `packages/shared/src/engine/client.ts` with all they
do outside: the gate of the breaker, the requests, the delays, the report to the breaker and the
line they log, and the result they return or throw (`errors.ts`).

* `loop_rounds` -- the loop, by its last attempt: the requests up to it, and what is made of it;
* `verify_drives` -- the same call as a `VerifyCall` in flight;
* `Client.Held` -- a half-open breaker always has the call of its probe in flight;
* `verify_bookkeeping` -- attempts, delays, result and report of a call.
-/
import Tozalist.Shared.EngineClient

namespace Tozalist.Shared.EngineVerify

set_option autoImplicit false

open Theory (Run StepOf Transition)

/-! ## Errors and responses -/

/-- The classes of `errors.ts`. -/
inductive EngineError where
  | unavailable (message : String)
  | timeout (timeoutMs : ℕ)
  | contract (detail : String)
  | http (status : ℕ)
  deriving DecidableEq, Repr

/-- `message`. -/
def EngineError.message : EngineError → String
  | .unavailable message => message
  | .timeout timeoutMs => "engine request timed out after " ++ toString timeoutMs ++ "ms"
  | .contract detail => "engine response violates the contract: " ++ detail
  | .http status => "engine responded with HTTP " ++ toString status

/-- What the transport comes back with: a response, an `EngineTimeoutError`, or anything else
thrown. -/
inductive Transported where
  | response (status : ℕ) (body : String)
  | timedOut (timeoutMs : ℕ)
  | threw
  deriving DecidableEq, Repr

/-- An issue of a failed validation. -/
structure Issue where
  path : List String
  code : String
  deriving DecidableEq, Repr

/-- `JSON.parse` and `engineResponseSchema.safeParse`. -/
structure Schema (Json Response : Type) where
  parse : String → Option Json
  safeParse : Json → Except (List Issue) Response

/-- The `detail` of a failed validation: paths and codes. -/
def issueDetail (issues : List Issue) : String :=
  "; ".intercalate <| issues.map fun issue =>
    (if ".".intercalate issue.path = "" then "(root)" else ".".intercalate issue.path) ++ ": " ++
      issue.code

/-- The result of `attemptOnce`. -/
inductive Attempt (Response : Type) where
  | success (response : Response)
  | clientError (error : EngineError)
  | serviceFailure (error : EngineError) (outcome : Outcome)

section Verify

variable {Json Response : Type} (schema : Schema Json Response)

/-- `attemptOnce`, once the transport is back. -/
def attemptOnce : Transported → Attempt Response
  | .timedOut timeoutMs => .serviceFailure (.timeout timeoutMs) .timeout
  -- The transport's own message is not to be trusted.
  | .threw => .serviceFailure (.unavailable "engine request failed") .networkError
  | .response status body =>
      if 500 ≤ status then .serviceFailure (.http status) .http5xx
      else if 400 ≤ status then .clientError (.http status)
      else match schema.parse body with
        | none => .serviceFailure (.contract "response body is not valid JSON") .contractError
        | some parsed =>
            match schema.safeParse parsed with
            | .error issues => .serviceFailure (.contract (issueDetail issues)) .contractError
            | .ok response => .success response

/-! ## The call -/

/-- What a call does outside. -/
inductive Act where
  /-- `breaker.acquire` -/
  | acquire (admitted : Bool)
  /-- `transport` -/
  | request
  /-- `delay` -/
  | delay (ms : ℕ)
  /-- `recordSuccess`, `recordFailure` or `recordNeutral` -/
  | record (report : Report)
  /-- `logCall` -/
  | log (outcome : Outcome) (attempts : ℕ)
  deriving DecidableEq, Repr

/-- The acts of a call, and what it returns or throws. -/
structure Called (Response : Type) where
  acts : List Act
  result : Except EngineError Response

/-- After the loop. -/
def giveUp (attempts : ℕ) : Option (EngineError × Outcome) → Called Response
  | none =>
      ⟨[.record .failure], .error (.unavailable "engine call failed without a recorded cause")⟩
  | some (error, outcome) => ⟨[.record .failure, .log outcome attempts], .error error⟩

variable (transport : ℕ → Transported)

/-- The loop, with so many attempts left of `MAX_ATTEMPTS`; the transport brings its outcomes by
the number of the attempt. -/
def loop : ℕ → ℕ → Option (EngineError × Outcome) → Called Response
  | 0, attempts, lastFailure => giveUp attempts lastFailure
  | left + 1, before, _ =>
      let attempts := before + 1
      match attemptOnce schema (transport attempts) with
      | .success response =>
          ⟨[.request, .record .success, .log .ok attempts], .ok response⟩
      | .clientError error =>
          ⟨[.request, .record .neutral, .log .http4xx attempts], .error error⟩
      | .serviceFailure error outcome =>
          if ¬ retryable outcome ∨ maxAttempts ≤ attempts then
            let rest : Called Response := giveUp attempts (some (error, outcome))
            ⟨.request :: rest.acts, rest.result⟩
          else
            let rest := loop left attempts (some (error, outcome))
            ⟨.request :: .delay (retryDelay attempts) :: rest.acts, rest.result⟩

/-- What a breaker that refuses throws. -/
def refusal (o : CircuitBreakerOptions) (now : Int) (b : CircuitBreaker) : EngineError :=
  if b.state = .opened ∧ now - b.openedAt < o.openDurationMs then
    .unavailable "engine circuit is open; request not attempted"
  else .unavailable "engine circuit is half-open; probe already in flight"

/-- `verify`, on a breaker as it is at the time of the call. -/
def verify (o : CircuitBreakerOptions) (now : Int) (b : CircuitBreaker) : Called Response :=
  if (b.acquire o now).1 then
    let rest := loop schema transport maxAttempts 0 none
    ⟨.acquire true :: rest.acts, rest.result⟩
  else ⟨[.acquire false, .log .circuitOpen 0], .error (refusal o now b)⟩

/-! ## Reading the acts -/

/-- How many attempts were made. -/
def requests (acts : List Act) : ℕ := acts.count .request

/-- The delays, in order. -/
def delays (acts : List Act) : List ℕ :=
  acts.filterMap fun
    | .delay ms => some ms
    | _ => none

/-- The reports to the breaker, in order. -/
def reports (acts : List Act) : List Report :=
  acts.filterMap fun
    | .record report => some report
    | _ => none

/-- A network error or a 5xx. -/
def Transported.Retried : Transported → Prop
  | .threw => True
  | .response status _ => 500 ≤ status
  | .timedOut _ => False

instance : (t : Transported) → Decidable t.Retried
  | .threw => inferInstanceAs (Decidable True)
  | .response status _ => inferInstanceAs (Decidable (500 ≤ status))
  | .timedOut _ => inferInstanceAs (Decidable False)

/-- What a call that ends with the attempt returns or throws. -/
def Attempt.result : Attempt Response → Except EngineError Response
  | .success response => .ok response
  | .clientError error => .error error
  | .serviceFailure error _ => .error error

/-- What it reports. -/
def Attempt.report : Attempt Response → Report
  | .success _ => .success
  | .clientError _ => .neutral
  | .serviceFailure _ _ => .failure

/-- What it logs. -/
def Attempt.outcome : Attempt Response → Outcome
  | .success _ => .ok
  | .clientError _ => .http4xx
  | .serviceFailure _ outcome => outcome

/-- The requests and delays of attempts `before + 1` to `before + 1 + more`. -/
def rounds : ℕ → ℕ → List Act
  | _, 0 => [.request]
  | before, more + 1 => .request :: .delay (retryDelay (before + 1)) :: rounds (before + 1) more

/-! ## The loop -/

theorem attemptOnce_retried {t : Transported} (retried : t.Retried) :
    ∃ error outcome, attemptOnce schema t = .serviceFailure error outcome ∧
      retryable outcome = true := by
  cases t with
  | timedOut timeoutMs => exact retried.elim
  | threw => exact ⟨_, _, rfl, rfl⟩
  | response status body =>
      have server : 500 ≤ status := retried
      exact ⟨_, .http5xx, if_pos server, rfl⟩

theorem attemptOnce_not_retried {t : Transported} (not_ : ¬ t.Retried) {error : EngineError}
    {outcome : Outcome} (is : attemptOnce schema t = .serviceFailure error outcome) :
    retryable outcome = false := by
  cases t with
  | timedOut timeoutMs =>
      cases is
      rfl
  | threw => exact absurd trivial not_
  | response status body =>
      have client : ¬ 500 ≤ status := not_
      rw [attemptOnce, if_neg client] at is
      split at is
      · cases is
      · split at is
        · cases is
          rfl
        · split at is
          · cases is
            rfl
          · cases is

/-- **The loop ends with one attempt**, after those that were retried: it makes the requests and
delays up to it, reports it, logs it and hands on its result. -/
theorem loop_rounds (left : ℕ) : ∀ (before : ℕ) (lastFailure : Option (EngineError × Outcome)),
    before + (left + 1) = maxAttempts →
    ∃ more, more ≤ left ∧
      (∀ k, before < k → k ≤ before + more → (transport k).Retried) ∧
      (before + more + 1 < maxAttempts → ¬ (transport (before + more + 1)).Retried) ∧
      loop schema transport (left + 1) before lastFailure =
        ⟨rounds before more ++
            [.record (attemptOnce schema (transport (before + more + 1))).report,
              .log (attemptOnce schema (transport (before + more + 1))).outcome
                (before + more + 1)],
          (attemptOnce schema (transport (before + more + 1))).result⟩ := by
  induction left with
  | zero =>
      intro before lastFailure room
      refine ⟨0, Nat.le_refl 0, fun k low high => by omega, fun more => by omega, ?_⟩
      rw [Nat.add_zero, loop]
      dsimp only
      cases attemptOnce schema (transport (before + 1)) with
      | success response => rfl
      | clientError error => rfl
      | serviceFailure error outcome =>
          dsimp only
          rw [if_pos (.inr (by omega))]
          rfl
  | succ left ih =>
      intro before lastFailure room
      by_cases retried : (transport (before + 1)).Retried
      · obtain ⟨error, outcome, is, again⟩ := attemptOnce_retried schema retried
        obtain ⟨more, bound, earlier, stops, rest⟩ :=
          ih (before + 1) (some (error, outcome)) (by omega)
        have shift : before + (more + 1) + 1 = before + 1 + more + 1 := by omega
        refine ⟨more + 1, by omega, ?_, ?_, ?_⟩
        · intro k low high
          by_cases first : k = before + 1
          · rw [first]
            exact retried
          · exact earlier k (by omega) (by omega)
        · rw [shift]
          exact stops
        · have goes : ¬ (¬ retryable outcome = true ∨ maxAttempts ≤ before + 1) := by
            rintro (no | full)
            · exact no again
            · omega
          rw [loop]
          dsimp only
          rw [is]
          dsimp only
          rw [if_neg goes, rest, shift]
          rfl
      · refine ⟨0, Nat.zero_le _, fun k low high => by omega, fun _ => retried, ?_⟩
        rw [Nat.add_zero, loop]
        dsimp only
        cases is : attemptOnce schema (transport (before + 1)) with
        | success response => rfl
        | clientError error => rfl
        | serviceFailure error outcome =>
            dsimp only
            rw [if_pos (.inl (by rw [attemptOnce_not_retried schema retried is]; decide))]
            rfl

/-- The acts of a call that is admitted, by its last attempt. -/
theorem verify_admitted {o : CircuitBreakerOptions} {now : Int} {b : CircuitBreaker}
    (admitted : (b.acquire o now).1 = true) :
    ∃ more, more < maxAttempts ∧
      (∀ k, 0 < k → k ≤ more → (transport k).Retried) ∧
      (more + 1 < maxAttempts → ¬ (transport (more + 1)).Retried) ∧
      verify schema transport o now b =
        ⟨.acquire true :: (rounds 0 more ++
            [.record (attemptOnce schema (transport (more + 1))).report,
              .log (attemptOnce schema (transport (more + 1))).outcome (more + 1)]),
          (attemptOnce schema (transport (more + 1))).result⟩ := by
  obtain ⟨more, bound, earlier, stops, is⟩ := loop_rounds schema transport 2 0 none rfl
  rw [Nat.zero_add] at stops is
  refine ⟨more, Nat.lt_succ_of_le bound, ?_, stops, ?_⟩
  · intro k low high
    exact earlier k low (by omega)
  · rw [verify, if_pos admitted]
    show Called.mk (.acquire true :: (loop schema transport 3 0 none).acts)
      (loop schema transport 3 0 none).result = _
    rw [is]

theorem verify_refused {o : CircuitBreakerOptions} {now : Int} {b : CircuitBreaker}
    (refused : (b.acquire o now).1 = false) :
    verify schema transport o now b =
      ⟨[.acquire false, .log .circuitOpen 0], .error (refusal o now b)⟩ := by
  rw [verify, refused]
  rfl

/-- So many rounds make so many requests and delays, and no report. -/
theorem rounds_acts (more : ℕ) (last : Report) (outcome : Outcome) (attempts : ℕ)
    (room : more < maxAttempts) :
    requests (.acquire true :: (rounds 0 more ++ [.record last, .log outcome attempts])) =
        more + 1 ∧
      delays (.acquire true :: (rounds 0 more ++ [.record last, .log outcome attempts])) =
        retryDelaysMs.take more ∧
      reports (.acquire true :: (rounds 0 more ++ [.record last, .log outcome attempts])) =
        [last] := by
  have few : more = 0 ∨ more = 1 ∨ more = 2 := by
    have three : maxAttempts = 3 := rfl
    omega
  rcases few with rfl | rfl | rfl
  · exact ⟨rfl, rfl, rfl⟩
  · exact ⟨rfl, rfl, rfl⟩
  · exact ⟨rfl, rfl, rfl⟩

/-! ## The call in flight -/

/-- The kind of an attempt. -/
def Attempt.kind : Attempt Response → AttemptResult
  | .success _ => .success
  | .clientError _ => .clientError
  | .serviceFailure _ outcome => .serviceFailure outcome

/-- The body parses and meets the contract. -/
def meetsContract (body : String) : Bool :=
  match schema.parse body with
  | none => false
  | some parsed =>
      match schema.safeParse parsed with
      | .error _ => false
      | .ok _ => true

/-- The outcome of the transport, by what matters of it to a call in flight. -/
def reply : Transported → TransportReply
  | .response status body => .response status (meetsContract schema body)
  | .timedOut _ => .timedOut
  | .threw => .threw

theorem attemptOnce_kind (t : Transported) :
    Shared.attemptOnce (reply schema t) = (attemptOnce schema t).kind := by
  cases t with
  | timedOut timeoutMs => rfl
  | threw => rfl
  | response status body =>
      rw [reply, Shared.attemptOnce, attemptOnce, meetsContract]
      split
      · rfl
      · split
        · rfl
        · cases parsed : schema.parse body with
          | none => rfl
          | some json => cases checked : schema.safeParse json <;> simp [Attempt.kind, checked]

/-- What a call waits for in each of its acts; `attempts` were made before. -/
def events : ℕ → List Act → List CallEvent
  | _, [] => []
  | attempts, .acquire admitted :: acts => .breaker admitted :: events attempts acts
  | attempts, .request :: acts =>
      .reply (reply schema (transport (attempts + 1))) :: events (attempts + 1) acts
  | attempts, .delay _ :: acts => .wake :: events attempts acts
  | attempts, .record _ :: acts => events attempts acts
  | attempts, .log _ _ :: acts => events attempts acts

/-- A failure that is not retried, or is the last, settles the call. -/
theorem afterAttempt_last {attempts now : ℕ} {t : Transported}
    (last : attempts < maxAttempts → ¬ t.Retried) :
    VerifyCall.afterAttempt attempts now (attemptOnce schema t).kind =
      .settled (attemptOnce schema t).outcome (some (attemptOnce schema t).report) := by
  cases is : attemptOnce schema t with
  | success response => rfl
  | clientError error => rfl
  | serviceFailure error outcome =>
      apply if_pos
      by_cases more : attempts < maxAttempts
      · left
        rw [attemptOnce_not_retried schema (last more) is]
        decide
      · exact .inr (Nat.le_of_not_lt more)

theorem rounds_drive (now more : ℕ) : ∀ before, before + more < maxAttempts →
    (∀ k, before < k → k ≤ before + more → (transport k).Retried) →
    (before + more + 1 < maxAttempts → ¬ (transport (before + more + 1)).Retried) →
    ∀ report outcome attempts,
      (events schema transport before
          (rounds before more ++ [.record report, .log outcome attempts])).foldl
        (VerifyCall.after now) (.attempting (before + 1) now) =
      .settled (attemptOnce schema (transport (before + more + 1))).outcome
        (some (attemptOnce schema (transport (before + more + 1))).report) := by
  induction more with
  | zero =>
      intro before _ _ last report outcome attempts
      show VerifyCall.afterAttempt (before + 1) now
        (Shared.attemptOnce (reply schema (transport (before + 1)))) = _
      rw [attemptOnce_kind]
      exact afterAttempt_last schema last
  | succ more ih =>
      intro before room retried last report outcome attempts
      have shift : before + (more + 1) = before + 1 + more := by omega
      rw [shift] at last ⊢
      obtain ⟨error, failed, is, again⟩ :=
        attemptOnce_retried schema (retried (before + 1) (by omega) (by omega))
      have pauses : VerifyCall.afterAttempt (before + 1) now
          (Shared.attemptOnce (reply schema (transport (before + 1)))) =
          .pausing (before + 1) (now + retryDelay (before + 1)) := by
        rw [attemptOnce_kind, is]
        apply if_neg
        rintro (no | full)
        · exact no again
        · omega
      show List.foldl (VerifyCall.after now) (VerifyCall.after now (VerifyCall.afterAttempt
        (before + 1) now (Shared.attemptOnce (reply schema (transport (before + 1))))) .wake)
        (events schema transport (before + 1)
          (rounds (before + 1) more ++ [.record report, .log outcome attempts])) = _
      rw [pauses]
      exact ih (before + 1) (by omega) (fun k low high => retried k (by omega) (by omega)) last
        report outcome attempts

/-- **A call is a `VerifyCall`**: driven by what its acts wait for, one in flight settles with
the outcome that is logged and the report that is made. -/
theorem verify_drives (o : CircuitBreakerOptions) (now : Int) (b : CircuitBreaker) (clock : ℕ) :
    ∃ outcome attempts,
      (verify schema transport o now b).acts.getLast? = some (.log outcome attempts) ∧
      (events schema transport 0 (verify schema transport o now b).acts).foldl
          (VerifyCall.after clock) (.asking clock) =
        .settled outcome (reports (verify schema transport o now b).acts).head? := by
  cases admitted : (b.acquire o now).1 with
  | false =>
      rw [verify_refused schema transport admitted]
      exact ⟨.circuitOpen, 0, rfl, rfl⟩
  | true =>
      obtain ⟨more, room, retried, last, is⟩ := verify_admitted schema transport admitted
      rw [is, (rounds_acts more _ _ _ room).2.2]
      refine ⟨(attemptOnce schema (transport (more + 1))).outcome, more + 1, ?_, ?_⟩
      · dsimp only
        rw [← List.cons_append, List.append_cons, List.getLast?_concat]
      · have driven := rounds_drive schema transport clock more 0 (by omega)
          (fun k low high => retried k low (by omega)) (by rw [Nat.zero_add]; exact last)
        simp only [Nat.zero_add] at driven
        exact driven _ _ (more + 1)

end Verify

/-! ## The slot of the half-open breaker -/

/-- While half-open, the call of the period's probe is in flight. -/
def Held (s : Client) : Prop :=
  s.breaker.state = .halfOpen → ∃ call ∈ s.calls, call.period = some s.periods

theorem Held.start {s : Client} (initial : s.Initial) : Held s := by
  intro half
  rw [initial.1] at half
  cases half

/-- **The slot is never leaked**: whoever takes the breaker half-open is in flight until a report
ends the period. -/
theorem Held.step {o : CircuitBreakerOptions} {s : Client} (held : Held s) (a : ClientAction) :
    Held (s.after o a) := by
  cases a with
  | tick later => exact held
  | report id report =>
      exact fun half => absurd half (Client.record_ne_halfOpen o s.now s.breaker report)
  | acquire id =>
      rw [Client.after]
      rcases CircuitBreaker.acquire_cases o s.now s.breaker with
        ⟨-, -, eq⟩ | ⟨opened, -, eq⟩ | ⟨-, -, eq⟩ | ⟨half, -, eq⟩ | ⟨closed, eq⟩
      · rw [eq]
        exact held
      · rw [eq]
        intro _
        refine ⟨⟨id, some (s.periods + 1)⟩, ?_, ?_⟩
        · simp [Client.letThrough, opened]
        · simp [Client.letThrough, opened]
      · rw [eq]
        exact held
      · rw [eq]
        intro _
        obtain ⟨call, member, period⟩ := held half
        refine ⟨call, List.mem_append_left _ member, ?_⟩
        simp [Client.letThrough, half, period]
      · rw [eq]
        intro half
        have half : s.breaker.state = .halfOpen := half
        rw [half] at closed
        cases closed

/-! ## Bookkeeping -/

section Bookkeeping

variable {Json Response : Type} (schema : Schema Json Response) (transport : ℕ → Transported)

/-- **The bookkeeping of a verify call**, for every sequence of transport outcomes and every state
of the breaker: at most three attempts, with the configured delays between them, each but the last
a network error or a 5xx; the result of the last; one report for a call that was admitted, and
neither a request nor a report for one that was not.  Whatever breaker the report finds is not
half-open after it, and in the runs of overlapping calls a half-open breaker has the call of its
probe in flight. -/
theorem verify_bookkeeping (o : CircuitBreakerOptions) (now : Int) (b : CircuitBreaker) :
    let called := verify schema transport o now b
    requests called.acts ≤ 3 ∧
      delays called.acts = retryDelaysMs.take (requests called.acts - 1) ∧
      (∀ k, 1 ≤ k → k < requests called.acts → (transport k).Retried) ∧
      ((b.acquire o now).1 = true →
        1 ≤ requests called.acts ∧
          called.result = (attemptOnce schema (transport (requests called.acts))).result ∧
          reports called.acts =
            [(attemptOnce schema (transport (requests called.acts))).report]) ∧
      ((b.acquire o now).1 = false →
        requests called.acts = 0 ∧ reports called.acts = [] ∧
          ∃ message, called.result = .error (.unavailable message)) ∧
      (∀ report ∈ reports called.acts, ∀ (found : CircuitBreaker) (at_ : Int),
        (found.record o at_ report).state ≠ .halfOpen) ∧
      ∀ (s t : Client) (tr : List (Transition Client ClientAction)), s.Initial →
        Run (StepOf Client.Allows (Client.after o)) s tr t → Held t ∧ ∀ e ∈ tr, Held e.target := by
  intro called
  have free : ∀ report ∈ reports called.acts, ∀ (found : CircuitBreaker) (at_ : Int),
      (found.record o at_ report).state ≠ .halfOpen := fun report _ found at_ =>
    Client.record_ne_halfOpen o at_ found report
  have runs : ∀ (s t : Client) (tr : List (Transition Client ClientAction)), s.Initial →
      Run (StepOf Client.Allows (Client.after o)) s tr t →
      Held t ∧ ∀ e ∈ tr, Held e.target := by
    intro s t tr initial run
    have held := run.throughout (fun _ _ _ held step => step.2 ▸ Held.step held _)
      (Held.start initial)
    exact ⟨held.1, fun e member => (held.2 e member).2⟩
  cases admitted : (b.acquire o now).1 with
  | false =>
      have is : called = _ := verify_refused schema transport admitted
      rw [is] at free ⊢
      refine ⟨Nat.zero_le 3, rfl, ?_, nofun, fun _ => ⟨rfl, rfl, ?_⟩, free, runs⟩
      · intro k low high
        exact absurd high (Nat.not_lt_zero k)
      · rw [refusal]
        split
        · exact ⟨_, rfl⟩
        · exact ⟨_, rfl⟩
  | true =>
      obtain ⟨more, room, retried, -, is⟩ := verify_admitted schema transport admitted
      have is : called = _ := is
      obtain ⟨made, paused, reported⟩ := rounds_acts more
        (attemptOnce schema (transport (more + 1))).report
        (attemptOnce schema (transport (more + 1))).outcome (more + 1) room
      have count : requests called.acts = more + 1 := by rw [is, made]
      refine ⟨?_, ?_, ?_, fun _ => ⟨?_, ?_, ?_⟩, nofun, free, runs⟩
      · rw [count]
        exact room
      · rw [count, is, paused]
        rfl
      · intro k low high
        exact retried k low (by omega)
      · omega
      · rw [count, is]
      · rw [count, is, reported]

end Bookkeeping

end Tozalist.Shared.EngineVerify
