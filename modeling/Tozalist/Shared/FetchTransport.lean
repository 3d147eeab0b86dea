/-
# Tozalist.Shared.FetchTransport -- a timeout while the body is read

`fetchTransport` of `packages/shared/src/engine/client.ts`.  The abort signal of an attempt fires
before the response headers, and `fetch` rejects, or after them, and `text()` does; both reject with
a `TimeoutError`.  Only the first is caught and becomes an `EngineTimeoutError`.

* `transported_timedOut_iff` -- which failures the client takes for a timeout;
* `neverRepeated_iff` -- a timed-out attempt is the last of its call, and is reported as a timeout,
  exactly when no attempt that is made runs out of time at its body;
* `slow_body_repeated` -- the refuted pole.
-/
import Tozalist.Shared.EngineVerify

namespace Tozalist.Shared.EngineVerify

set_option autoImplicit false

/-! ## The transport -/

/-- What a promise of the runtime rejects with: a `DOMException` of some name, or anything else. -/
inductive Thrown where
  | domException (name : String)
  | other
  deriving DecidableEq, Repr

/-- The outcome of `fetch`, and of `text()` on its response. -/
inductive Fetched where
  | rejected (thrown : Thrown)
  | responded (status : ℕ) (text : Except Thrown String)
  deriving DecidableEq, Repr

/-- `fetchTransport`, for a request of `timeoutMs`. -/
def fetchTransport (timeoutMs : ℕ) : Fetched → Transported
  | .rejected (.domException name) =>
      if name = "TimeoutError" ∨ name = "AbortError" then .timedOut timeoutMs else .threw
  | .rejected .other => .threw
  -- `text()` is awaited after the `try`: its rejection is that of the transport.
  | .responded _ (.error _) => .threw
  | .responded status (.ok text) => .response status text

/-- The attempt ran out of its time budget. -/
def Fetched.RanOut : Fetched → Prop
  | .rejected thrown => thrown = .domException "TimeoutError"
  | .responded _ (.error thrown) => thrown = .domException "TimeoutError"
  | .responded _ (.ok _) => False

instance : (f : Fetched) → Decidable f.RanOut
  | .rejected thrown => inferInstanceAs (Decidable (thrown = .domException "TimeoutError"))
  | .responded _ (.error thrown) =>
      inferInstanceAs (Decidable (thrown = .domException "TimeoutError"))
  | .responded _ (.ok _) => inferInstanceAs (Decidable False)

/-- It ran out of it while the body was read. -/
def Fetched.BodyRanOut : Fetched → Prop
  | .responded _ (.error thrown) => thrown = .domException "TimeoutError"
  | _ => False

/-- What becomes of an attempt that ran out of time: a timeout before the headers, a failure to be
retried after them. -/
theorem transported_of_ranOut (timeoutMs : ℕ) {f : Fetched} (out : f.RanOut) :
    fetchTransport timeoutMs f = .timedOut timeoutMs ∧ ¬ f.BodyRanOut ∨
      fetchTransport timeoutMs f = .threw ∧ f.BodyRanOut := by
  cases f with
  | rejected thrown =>
      have named : thrown = .domException "TimeoutError" := out
      rw [named]
      exact .inl ⟨rfl, id⟩
  | responded status text =>
      cases text with
      | error thrown => exact .inr ⟨rfl, out⟩
      | ok text => exact out.elim

theorem Fetched.BodyRanOut.ranOut {f : Fetched} (body : f.BodyRanOut) : f.RanOut := by
  cases f with
  | rejected thrown => exact body.elim
  | responded status text =>
      cases text with
      | error thrown => exact body
      | ok text => exact body.elim

/-! ## The call -/

section Call

variable {Json Response : Type} (schema : Schema Json Response) (timeoutMs : ℕ)
  (fetched : ℕ → Fetched)

/-- The outcomes of the default transport. -/
def transport : ℕ → Transported :=
  fun attempt => fetchTransport timeoutMs (fetched attempt)

/-- A call that its breaker admits comes to this attempt: all before it were retried. -/
def Made (o : CircuitBreakerOptions) (now : Int) (b : CircuitBreaker) (attempt : ℕ) : Prop :=
  (b.acquire o now).1 = true ∧ 1 ≤ attempt ∧ attempt ≤ maxAttempts ∧
    ∀ k, 1 ≤ k → k < attempt → (transport timeoutMs fetched k).Retried

/-- An attempt that ran out of time is the last, the call throws an `EngineTimeoutError`, and there
is at most one. -/
def NeverRepeated (o : CircuitBreakerOptions) (now : Int) (b : CircuitBreaker) : Prop :=
  let called := verify schema (transport timeoutMs fetched) o now b
  (∀ k, 1 ≤ k → k ≤ requests called.acts → (fetched k).RanOut →
      k = requests called.acts ∧ called.result = .error (.timeout timeoutMs)) ∧
    ∀ j k, 1 ≤ j → j ≤ requests called.acts → (fetched j).RanOut →
      1 ≤ k → k ≤ requests called.acts → (fetched k).RanOut → j = k

/-- **The attempts that are made** are those all of whose predecessors were retried. -/
theorem made_iff (o : CircuitBreakerOptions) (now : Int) (b : CircuitBreaker) (attempt : ℕ) :
    Made timeoutMs fetched o now b attempt ↔
      1 ≤ attempt ∧
        attempt ≤ requests (verify schema (transport timeoutMs fetched) o now b).acts := by
  cases admitted : (b.acquire o now).1 with
  | false =>
      rw [verify_refused schema _ admitted]
      refine iff_of_false ?_ ?_
      · rintro ⟨yes, -⟩
        rw [admitted] at yes
        cases yes
      · rintro ⟨low, high⟩
        have none_ : attempt ≤ 0 := high
        omega
  | true =>
      obtain ⟨more, room, retried, stops, is⟩ :=
        verify_admitted schema (transport timeoutMs fetched) admitted
      rw [is, (rounds_acts more _ _ _ room).1]
      constructor
      · rintro ⟨-, low, high, all⟩
        refine ⟨low, ?_⟩
        by_contra beyond
        have short : more + 1 < maxAttempts := by omega
        exact stops short (all (more + 1) (by omega) (by omega))
      · rintro ⟨low, high⟩
        exact ⟨admitted, low, by omega, fun k first last => retried k first (by omega)⟩

/-- An attempt that was retried is followed by another, unless it was the last there may be. -/
theorem result_of_last (o : CircuitBreakerOptions) (now : Int) (b : CircuitBreaker) {attempt : ℕ}
    (made : 1 ≤ attempt)
    (last : attempt = requests (verify schema (transport timeoutMs fetched) o now b).acts) :
    (verify schema (transport timeoutMs fetched) o now b).result =
      (attemptOnce schema (transport timeoutMs fetched attempt)).result := by
  cases admitted : (b.acquire o now).1 with
  | false =>
      rw [verify_refused schema _ admitted] at last
      have none_ : attempt = 0 := last
      omega
  | true =>
      obtain ⟨more, room, -, -, is⟩ :=
        verify_admitted schema (transport timeoutMs fetched) admitted
      rw [is, (rounds_acts more _ _ _ room).1] at last
      rw [is, last]

/-- **When a timed-out call is never repeated**: exactly when no attempt that is made runs out of
time while its body is read. -/
theorem neverRepeated_iff (o : CircuitBreakerOptions) (now : Int) (b : CircuitBreaker) :
    NeverRepeated schema timeoutMs fetched o now b ↔
      ∀ k, Made timeoutMs fetched o now b k → ¬ (fetched k).BodyRanOut := by
  constructor
  · rintro ⟨last, -⟩ k made body
    obtain ⟨low, high⟩ := (made_iff schema timeoutMs fetched o now b k).1 made
    obtain ⟨same, thrown⟩ := last k low high body.ranOut
    rw [result_of_last schema timeoutMs fetched o now b low same] at thrown
    rcases transported_of_ranOut timeoutMs body.ranOut with ⟨-, not_⟩ | ⟨threw, -⟩
    · exact not_ body
    · rw [transport, threw] at thrown
      cases thrown
  · intro none_
    have last : ∀ k, 1 ≤ k →
        k ≤ requests (verify schema (transport timeoutMs fetched) o now b).acts →
        (fetched k).RanOut →
        k = requests (verify schema (transport timeoutMs fetched) o now b).acts ∧
          transport timeoutMs fetched k = .timedOut timeoutMs := by
      intro k low high out
      have made := (made_iff schema timeoutMs fetched o now b k).2 ⟨low, high⟩
      rcases transported_of_ranOut timeoutMs out with ⟨timedOut, -⟩ | ⟨-, body⟩
      · refine ⟨?_, timedOut⟩
        by_contra more
        have next : Made timeoutMs fetched o now b (k + 1) :=
          (made_iff schema timeoutMs fetched o now b (k + 1)).2 ⟨by omega, by omega⟩
        have retried := next.2.2.2 k low (Nat.lt_succ_self k)
        rw [transport, timedOut] at retried
        exact retried
      · exact absurd body (none_ k made)
    constructor
    · intro k low high out
      obtain ⟨same, timedOut⟩ := last k low high out
      refine ⟨same, ?_⟩
      rw [result_of_last schema timeoutMs fetched o now b low same, timedOut]
      rfl
    · intro j k low high out low' high' out'
      exact (last j low high out).1.trans (last k low' high' out').1.symm

end Call

/-- An engine that answers with headers at once and never finishes its body. -/
def slowBody : ℕ → Fetched :=
  fun _ => .responded 200 (.error (.domException "TimeoutError"))

/-- A contract that any body meets. -/
def anyBody : Schema Unit Unit := ⟨fun _ => some (), fun _ => .ok ()⟩

/-- **Refuted**: the call is made three times, each for its full time budget, and ends in a network
failure. -/
theorem slow_body_repeated :
    requests (verify anyBody (transport 30000 slowBody) .standard 0 .initial).acts = 3 ∧
      (verify anyBody (transport 30000 slowBody) .standard 0 .initial).result =
        .error (.unavailable "engine request failed") ∧
      ¬ NeverRepeated anyBody 30000 slowBody .standard 0 .initial := by
  refine ⟨rfl, rfl, ?_⟩
  intro never
  obtain ⟨last, -⟩ := never.1 1 (by decide) (by decide) rfl
  exact absurd last (by decide)

end Tozalist.Shared.EngineVerify
