/-
# Tozalist.Api.RateLimit -- the two limiters of the API

`SLIDING_WINDOW_SCRIPT` of `apps/api/src/plugins/rate-limit.ts` with the `Retry-After` that
the plugin derives from it, and `RATE_SCRIPT` of `apps/api/src/routes/public-leads.ts`, each
run over the calls for one key.  Both are the shared window, so the histories of both follow
the rule of a sliding window.

`sliding_windows_exact` says so of them and of the throttle of the worker.
-/
import Mathlib.Algebra.Order.BigOperators.Group.List
import Tozalist.Worker.Throttle

namespace Tozalist.Api

set_option autoImplicit false

open Redis (ZSet Keeps windowStep windowStep_cases)
open Theory.SlidingWindow

/-! ## The scripts -/

/-- `SLIDING_WINDOW_SCRIPT`: the reply `{1, 0}` or `{0, retry}`, and the key after. -/
def slidingWindowScript (now windowMs limit : ℕ) (member : String) (key : ZSet) :
    (ℕ × ℕ) × ZSet :=
  let key := (key.live now).zremrangebyscore 0 (now - windowMs)
  let count := key.zcard
  if limit ≤ count then
    let retry := key.lowestScore.getD 0 + windowMs - now
    ((0, if retry < 1 then 1 else retry), key)
  else ((1, 0), (key.zadd now member).pexpire now windowMs)

/-- `retryAfterSeconds`. -/
def retryAfterSeconds (retry : ℕ) : ℕ := max 1 ((retry + 999) / 1000)

/-- What the plugin answers to a reply, the wait in milliseconds. -/
def rateLimitAnswer (reply : ℕ × ℕ) : Answer :=
  if reply.1 ≠ 1 then .refused (some (retryAfterSeconds reply.2 * 1000)) else .accepted

/-- `RATE_SCRIPT`: the reply, and the key after. -/
def rateScript (now windowMs limit : ℕ) (member : String) (key : ZSet) : ℕ × ZSet :=
  let key := (key.live now).zremrangebyscore 0 (now - windowMs)
  if limit ≤ key.zcard then (0, key)
  else (1, (key.zadd now member).pexpire now windowMs)

/-- What the route answers to a reply. -/
def leadsAnswer (reply : ℕ) : Answer := if reply ≠ 1 then .refused none else .accepted

theorem slidingWindowScript_eq (now windowMs limit : ℕ) (member : String) (key : ZSet) :
    slidingWindowScript now windowMs limit member key =
      ((windowStep limit windowMs now member key).1.elim (1, 0) fun retry => (0, retry),
        (windowStep limit windowMs now member key).2) := by
  rw [slidingWindowScript, windowStep]
  split
  · refine Prod.ext (Prod.ext rfl ?_) rfl
    simp only [Option.elim_some]
    split <;> omega
  · rfl

theorem rateScript_eq (now windowMs limit : ℕ) (member : String) (key : ZSet) :
    rateScript now windowMs limit member key =
      (if (windowStep limit windowMs now member key).1.isSome then 0 else 1,
        (windowStep limit windowMs now member key).2) := by
  rw [rateScript, windowStep]
  split <;> rfl

/-! ## Histories -/

/-- The calls for one key: their times and members. -/
abbrev Calls : Type := List (ℕ × String)

/-- The clock does not go back, and no member is used twice. -/
structure Timely (calls : Calls) : Prop where
  sorted : calls.Pairwise fun a b => a.1 ≤ b.1
  distinct : (calls.map (·.2)).Nodup

instance (calls : Calls) : Decidable (Timely calls) :=
  decidable_of_iff (calls.Pairwise (fun a b => a.1 ≤ b.1) ∧ (calls.map (·.2)).Nodup)
    ⟨fun ⟨sorted, distinct⟩ => ⟨sorted, distinct⟩,
      fun timely => ⟨timely.sorted, timely.distinct⟩⟩

/-- One more call, answered by `script`. -/
def answerCall (script : ℕ → String → ZSet → Answer × ZSet) (s : ZSet × Log)
    (call : ℕ × String) : ZSet × Log :=
  let reply := script call.1 call.2 s.1
  (reply.2, s.2 ++ [(call.1, reply.1)])

/-- A call of the API-key limiter. -/
def rateLimit (limit windowMs now : ℕ) (member : String) (key : ZSet) : Answer × ZSet :=
  let reply := slidingWindowScript now windowMs limit member key
  (rateLimitAnswer reply.1, reply.2)

/-- A call of the leads limiter. -/
def leadsLimit (limit windowMs now : ℕ) (member : String) (key : ZSet) : Answer × ZSet :=
  let reply := rateScript now windowMs limit member key
  (leadsAnswer reply.1, reply.2)

/-- The history of calls for a key that does not exist at first. -/
def logOfCalls (script : ℕ → String → ZSet → Answer × ZSet) (calls : Calls) : Log :=
  (calls.foldl (answerCall script) (.empty, [])).2

/-- A script that answers as the shared window does, and reports long enough delays. -/
def Windowed (limit windowMs : ℕ) (script : ℕ → String → ZSet → Answer × ZSet) : Prop :=
  ∀ now member key,
    (script now member key).2 = (windowStep limit windowMs now member key).2 ∧
      match (windowStep limit windowMs now member key).1 with
      | none => (script now member key).1 = .accepted
      | some retry => ∃ delay, (script now member key).1 = .refused delay ∧ ∀ d ∈ delay, retry ≤ d

theorem windowed_rateLimit (limit windowMs : ℕ) :
    Windowed limit windowMs (rateLimit limit windowMs) := by
  intro now member key
  simp only [rateLimit, slidingWindowScript_eq, true_and]
  cases (windowStep limit windowMs now member key).1 with
  | none => rfl
  | some retry =>
      refine ⟨_, rfl, ?_⟩
      intro d same
      obtain rfl := Option.some.inj same
      -- the seconds are rounded up
      show retry ≤ max 1 ((retry + 999) / 1000) * 1000
      omega

theorem windowed_leads (limit windowMs : ℕ) :
    Windowed limit windowMs (leadsLimit limit windowMs) := by
  intro now member key
  simp only [leadsLimit, rateScript_eq, true_and]
  cases (windowStep limit windowMs now member key).1 with
  | none => rfl
  | some retry => exact ⟨none, rfl, fun d none_ => by cases none_⟩

/-- **Every history** of such a script follows the rule, up to any time after its calls. -/
theorem Windowed.follows {limit windowMs : ℕ} (positive : 1 ≤ limit)
    {script : ℕ → String → ZSet → Answer × ZSet} (windowed : Windowed limit windowMs script)
    {calls : Calls} (timely : Timely calls) {now : ℕ} (past : ∀ call ∈ calls, call.1 ≤ now) :
    Follows limit windowMs (calls.foldl (answerCall script) (.empty, [])).2 now ∧
      Keeps windowMs (calls.map (·.2)) (calls.foldl (answerCall script) (.empty, [])).1
        (acceptedTimes (calls.foldl (answerCall script) (.empty, [])).2) now := by
  induction calls using List.reverseRecOn generalizing now with
  | nil => exact ⟨.start now, (Keeps.empty windowMs).wait (Nat.zero_le now) (List.Subset.refl _)⟩
  | append_singleton calls call ih =>
      have before : ∀ past ∈ calls, past.1 ≤ call.1 := fun past member =>
        (List.pairwise_append.1 timely.sorted).2.2 past member call (List.mem_singleton_self call)
      have distinct := timely.distinct
      rw [List.map_append, List.map_singleton, List.nodup_append] at distinct
      have new : call.2 ∉ calls.map (·.2) := fun member =>
        distinct.2.2 _ member _ (List.mem_singleton_self _) rfl
      obtain ⟨follows, keeps⟩ :=
        ih ⟨(List.pairwise_append.1 timely.sorted).1, distinct.1⟩ before
      have le : call.1 ≤ now := past call (List.mem_append_right _ (List.mem_singleton_self call))
      rw [List.foldl_append, List.foldl_cons, List.foldl_nil, List.map_append, List.map_singleton]
      generalize calls.foldl (answerCall script) (.empty, []) = s at follows keeps
      obtain ⟨key, answer⟩ := windowed call.1 call.2 s.1
      rw [answerCall]
      simp only [key, acceptedTimes_append]
      rcases windowStep_cases positive keeps follows.past_accepted new with
        ⟨key', eq, room, kept⟩ | ⟨retry, key', eq, full, ⟨oldest, member, rfl⟩, kept⟩
      · rw [eq] at answer ⊢
        simp only at answer
        rw [answer, acceptedTimes_accepted]
        exact ⟨.wait (.call follows room) le, kept.wait le (List.Subset.refl _)⟩
      · rw [eq] at answer ⊢
        obtain ⟨delay, refused, enough⟩ := answer
        rw [refused, acceptedTimes_refused, List.append_nil]
        refine ⟨.wait (.call follows ⟨full, fun d reported => ⟨oldest, member, ?_⟩⟩) le,
          kept.wait le (List.Subset.refl _)⟩
        have := enough d reported
        show oldest + windowMs ≤ call.1 + d
        omega

/-- **A limiter of the API** keeps the promises of a sliding window. -/
theorem Windowed.exact {limit windowMs : ℕ} (positive : 1 ≤ limit)
    {script : ℕ → String → ZSet → Answer × ZSet} (windowed : Windowed limit windowMs script)
    {calls : Calls} (timely : Timely calls) :
    Exact limit windowMs (logOfCalls script calls) := by
  have bound : ∀ call ∈ calls, call.1 ≤ (calls.map (·.1)).sum := by
    intro call member
    have listed : call.1 ∈ calls.map (·.1) := List.mem_map_of_mem member
    exact List.le_sum_of_mem listed
  exact (windowed.follows positive timely bound).1.exact

/-! ## The three scripts -/

/-- **Sliding windows are exact**: in every history of the API limiter, of the leads limiter
and of the throttle of a mail server.  The throttle turns a call away for its lease when, and only
when, an earlier call holds it. -/
theorem sliding_windows_exact (limit windowMs : ℕ) (positive : 1 ≤ limit) :
    (∀ calls, Timely calls → Exact limit windowMs (logOfCalls (rateLimit limit windowMs) calls)) ∧
      (∀ calls, Timely calls →
        Exact limit windowMs (logOfCalls (leadsLimit limit windowMs) calls)) ∧
      ∀ leaseTtlMs leaseRetryMs events, Worker.TimelyEvents events →
        Exact limit windowMs
            (Worker.throttleLog ⟨limit, windowMs, leaseTtlMs, leaseRetryMs⟩ events) ∧
          ∀ before now token after, events = before ++ .acquire now token :: after →
            (Worker.LastAnswer ⟨limit, windowMs, leaseTtlMs, leaseRetryMs⟩ before now token
                .busy ↔ ∃ at_ holder, Worker.Leased ⟨limit, windowMs, leaseTtlMs, leaseRetryMs⟩
                  before now at_ holder) := by
  refine ⟨fun calls timely => (windowed_rateLimit limit windowMs).exact positive timely,
    fun calls timely => (windowed_leads limit windowMs).exact positive timely, ?_⟩
  intro leaseTtlMs leaseRetryMs events timely
  have bound : ∀ event ∈ events, event.time ≤ (events.map (·.time)).sum := by
    intro event member
    exact List.le_sum_of_mem (List.mem_map_of_mem member)
  have limited : 1 ≤
      (⟨limit, windowMs, leaseTtlMs, leaseRetryMs⟩ : Worker.MxThrottleOptions).windowLimit :=
    positive
  refine ⟨(Worker.throttle_follows limited timely bound).1.exact, ?_⟩
  rintro before now token after rfl
  obtain ⟨sorted, -, ordered⟩ := List.pairwise_append.1 timely.sorted
  exact Worker.throttle_busy_iff sorted fun event member =>
    ordered event member _ List.mem_cons_self

/-- A lease of a second, two probes a minute: `b` meets the lease of `a`, which is then given back,
`c` lets its own run out, and `d` is told to wait until `a` has left the window. -/
def probed : List Worker.ThrottleEvent :=
  [.acquire 0 "a", .acquire 400 "b", .release 500 "a", .acquire 600 "c", .acquire 2000 "d",
    .acquire 60000 "e"]

/-- Two calls a second: the third is told to wait for a second, and then accepted.  So is the
throttle's. -/
theorem sliding_windows_exact_two :
    logOfCalls (rateLimit 2 1000) [(5000, "a"), (5010, "b"), (5500, "c"), (6500, "d")] =
        [(5000, .accepted), (5010, .accepted), (5500, .refused (some 1000)), (6500, .accepted)] ∧
      Exact 2 1000
        (logOfCalls (rateLimit 2 1000) [(5000, "a"), (5010, "b"), (5500, "c"), (6500, "d")]) ∧
      Worker.throttleLog ⟨2, 60000, 1000, 1000⟩ probed =
        [(0, .accepted), (400, .busy), (600, .accepted), (2000, .refused (some 58000)),
          (60000, .accepted)] ∧
      Exact 2 60000 (Worker.throttleLog ⟨2, 60000, 1000, 1000⟩ probed) ∧
      ∃ at_ holder, Worker.Leased ⟨2, 60000, 1000, 1000⟩ [.acquire 0 "a"] 400 at_ holder := by
  have throttled := (sliding_windows_exact 2 60000 (by decide)).2.2 1000 1000 probed
    ⟨by decide, by decide⟩
  refine ⟨by decide, (sliding_windows_exact 2 1000 (by decide)).1 _ (by decide),
    by decide +kernel, throttled.1, (throttled.2 [.acquire 0 "a"] 400 "b" _ rfl).1 ?_⟩
  rw [Worker.LastAnswer]
  decide

end Tozalist.Api
