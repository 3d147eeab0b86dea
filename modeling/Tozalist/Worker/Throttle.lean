/-
# Tozalist.Worker.Throttle -- one probe per mail server, and so many a minute

`apps/worker/src/smtp/throttle.ts`: the two scripts of `MxThrottle` on the keys of one host,
the lease and the window, and what `acquire` makes of the reply.  A lease that is held turns
a call away before its window is looked at; apart from that the window is the shared one.

* `throttle_follows` -- the calls for a host follow the rule of a sliding window.
* `throttle_busy_iff` -- a call is turned away for the lease exactly when an earlier call holds
  it: neither is its time over, nor was it given back.
-/
import Tozalist.Redis.Window

namespace Tozalist.Worker

set_option autoImplicit false

open Redis (ZSet StringKey getKey setPx Keeps windowStep windowStep_cases)
open Theory.SlidingWindow

/-- The keys of a host. -/
structure HostKeys where
  lease : Option StringKey
  window : ZSet
  deriving DecidableEq, Repr

/-- No key exists. -/
def HostKeys.none : HostKeys := ⟨.none, .empty⟩

/-- `MxThrottleOptions`, as the constructor keeps them. -/
structure MxThrottleOptions where
  windowLimit : ℕ
  windowMs : ℕ
  leaseTtlMs : ℕ
  leaseRetryMs : ℕ
  deriving DecidableEq, Repr

/-- The defaults. -/
def MxThrottleOptions.standard : MxThrottleOptions := ⟨5, 60000, 30000, 1000⟩

/-- The reply of `ACQUIRE_SCRIPT`: `{1, 0}`, `{0, ttl, 'lease'}` or `{0, retry, 'window'}`. -/
inductive AcquireReply where
  | acquired
  | lease (ttl : ℕ)
  | window (retry : ℕ)
  deriving DecidableEq, Repr

/-- `ACQUIRE_SCRIPT`. -/
def acquireScript (o : MxThrottleOptions) (now : ℕ) (token : String) (keys : HostKeys) :
    AcquireReply × HostKeys :=
  match getKey now keys.lease with
  | some held =>
      let ttl := held.pttl now
      (.lease (if ttl < 0 then o.leaseTtlMs else ttl.toNat), keys)
  | none =>
      let window := (keys.window.live now).zremrangebyscore 0 (now - o.windowMs)
      if o.windowLimit ≤ window.zcard then
        let retry := window.lowestScore.getD 0 + o.windowMs - now
        (.window (if retry < 1 then 1 else retry), { keys with window := window })
      else
        (.acquired,
          { lease := some (setPx now o.leaseTtlMs token)
            window := (window.zadd now token).pexpire now o.windowMs })

/-- `RELEASE_SCRIPT`. -/
def releaseScript (now : ℕ) (token : String) (keys : HostKeys) : HostKeys :=
  match getKey now keys.lease with
  | some held => if held.value = token then { keys with lease := none } else keys
  | none => keys

/-- `ThrottleDecision`. -/
inductive ThrottleDecision where
  | allowed (leaseToken : String)
  | delayed (retryDelayMs : ℕ)
  deriving DecidableEq, Repr

/-- The delay that `acquire` reports: at least half a second, at most the window. -/
def retryDelayMs (o : MxThrottleOptions) (suggested : ℕ) : ℕ :=
  min (max suggested 500) o.windowMs

/-- What `acquire` makes of the reply. -/
def acquireDecision (o : MxThrottleOptions) (token : String) : AcquireReply → ThrottleDecision
  | .acquired => .allowed token
  | .lease ttl => .delayed (retryDelayMs o (min o.leaseRetryMs ttl))
  | .window retry => .delayed (retryDelayMs o retry)

/-- `acquire`, with the token it draws. -/
def acquire (o : MxThrottleOptions) (now : ℕ) (token : String) (keys : HostKeys) :
    ThrottleDecision × HostKeys :=
  let reply := acquireScript o now token keys
  (acquireDecision o token reply.1, reply.2)

/-! ## What the scripts do -/

/-- **Every way through the acquire script**: the lease is held, or the shared window
decides. -/
theorem acquireScript_cases (o : MxThrottleOptions) (now : ℕ) (token : String)
    (keys : HostKeys) :
    (∃ held ttl, getKey now keys.lease = some held ∧
        acquireScript o now token keys = (.lease ttl, keys)) ∨
      (getKey now keys.lease = none ∧
        ∃ retry window, windowStep o.windowLimit o.windowMs now token keys.window =
            (some retry, window) ∧
          acquireScript o now token keys = (.window retry, { keys with window := window })) ∨
      (getKey now keys.lease = none ∧
        ∃ window, windowStep o.windowLimit o.windowMs now token keys.window = (none, window) ∧
          acquireScript o now token keys =
            (.acquired, ⟨some (setPx now o.leaseTtlMs token), window⟩)) := by
  rw [acquireScript, windowStep]
  cases lease : getKey now keys.lease with
  | some held => exact .inl ⟨held, _, rfl, rfl⟩
  | none =>
      simp only
      split
      · refine .inr (.inl ⟨trivial, _, _, rfl, ?_⟩)
        have same (retry : ℕ) : (if retry < 1 then 1 else retry) = max 1 retry := by
          split <;> omega
        rw [same]
      · exact .inr (.inr ⟨trivial, _, rfl, rfl⟩)

/-- A release takes the lease of its own token, or nothing. -/
theorem releaseScript_lease (now : ℕ) (token : String) (keys : HostKeys) :
    (releaseScript now token keys).window = keys.window ∧
      ((releaseScript now token keys).lease = keys.lease ∨
        ∃ held, keys.lease = some held ∧ held.value = token ∧
          (releaseScript now token keys).lease = none) := by
  rw [releaseScript]
  cases lease : getKey now keys.lease with
  | none => exact ⟨rfl, .inl rfl⟩
  | some held =>
      simp only
      split
      · rename_i own
        exact ⟨rfl, .inr ⟨held, (Option.filter_eq_some_iff.1 lease).1, own, rfl⟩⟩
      · exact ⟨rfl, .inl rfl⟩

/-! ## Histories -/

/-- What happens to the keys of a host: a call of `acquire`, or one of `release`. -/
inductive ThrottleEvent where
  | acquire (now : ℕ) (token : String)
  | release (now : ℕ) (token : String)
  deriving DecidableEq, Repr

def ThrottleEvent.time : ThrottleEvent → ℕ
  | .acquire now _ => now
  | .release now _ => now

/-- The member that a call may add. -/
def ThrottleEvent.member? : ThrottleEvent → Option String
  | .acquire _ token => some token
  | .release _ _ => none

/-- The clock does not go back, and no two calls of `acquire` draw one token. -/
structure TimelyEvents (events : List ThrottleEvent) : Prop where
  sorted : events.Pairwise fun a b => a.time ≤ b.time
  distinct : (events.filterMap (·.member?)).Nodup

/-- What a call of `acquire` is told, for its log; `busy` is the doing of a lease, and
`throttle_busy_iff` has of which. -/
def throttleAnswer (o : MxThrottleOptions) : AcquireReply → Answer
  | .acquired => .accepted
  | .lease _ => .busy
  | .window retry => .refused (some (retryDelayMs o retry))

/-- One more event. -/
def answerEvent (o : MxThrottleOptions) (s : HostKeys × Log) : ThrottleEvent → HostKeys × Log
  | .acquire now token =>
      let reply := acquireScript o now token s.1
      (reply.2, s.2 ++ [(now, throttleAnswer o reply.1)])
  | .release now token => (releaseScript now token s.1, s.2)

/-- The calls of `acquire` for a host whose keys do not exist at first, and their answers. -/
def throttleLog (o : MxThrottleOptions) (events : List ThrottleEvent) : Log :=
  (events.foldl (answerEvent o) (.none, [])).2

/-- The delay that is reported is not too short. -/
theorem le_retryDelayMs {o : MxThrottleOptions} {retry : ℕ} (within : retry ≤ o.windowMs) :
    retry ≤ retryDelayMs o retry := by
  rw [retryDelayMs]
  omega

/-- **A call of `acquire`** is answered as the rule has it, and the window keeps what counts. -/
theorem acquire_follows {o : MxThrottleOptions} (positive : 1 ≤ o.windowLimit) {at_ : ℕ}
    {token : String} {members : List String} {keys : HostKeys} {log : Log}
    (follows : Follows o.windowLimit o.windowMs log at_)
    (keeps : Keeps o.windowMs members keys.window (acceptedTimes log) at_)
    (new : token ∉ members) :
    Follows o.windowLimit o.windowMs
        (log ++ [(at_, throttleAnswer o (acquireScript o at_ token keys).1)]) at_ ∧
      Keeps o.windowMs (members ++ [token]) (acquireScript o at_ token keys).2.window
        (acceptedTimes (log ++ [(at_, throttleAnswer o (acquireScript o at_ token keys).1)])) at_ := by
  rw [acceptedTimes_append]
  rcases acquireScript_cases o at_ token keys with
    ⟨held, ttl, -, eq⟩ | ⟨-, retry, window, step, eq⟩ | ⟨-, window, step, eq⟩
  · rw [eq]
    simp only [throttleAnswer, acceptedTimes_busy, List.append_nil]
    exact ⟨.call follows trivial, keeps.wait le_rfl (List.subset_append_left _ _)⟩
  · rcases windowStep_cases positive keeps follows.past_accepted new with
      ⟨_, other, -⟩ | ⟨_, _, same, full, ⟨oldest, inside_, rfl⟩, kept⟩
    · rw [step] at other
      cases other
    · rw [step] at same
      obtain ⟨reported, rfl⟩ := Prod.mk.inj same
      obtain rfl := Option.some.inj reported
      rw [eq]
      simp only [throttleAnswer, acceptedTimes_refused, List.append_nil]
      refine ⟨.call follows ⟨full, fun d reported => ⟨oldest, inside_, ?_⟩⟩, kept⟩
      obtain rfl := Option.some.inj reported
      have old : oldest ≤ at_ := follows.past_accepted oldest (List.mem_of_mem_filter inside_)
      have enough : oldest + o.windowMs - at_ ≤ retryDelayMs o (oldest + o.windowMs - at_) :=
        le_retryDelayMs (by omega)
      show oldest + o.windowMs ≤ at_ + _
      omega
  · rcases windowStep_cases positive keeps follows.past_accepted new with
      ⟨_, same, room, kept⟩ | ⟨_, _, other, -⟩
    · rw [step] at same
      obtain ⟨-, rfl⟩ := Prod.mk.inj same
      rw [eq]
      simp only [throttleAnswer, acceptedTimes_accepted]
      exact ⟨.call follows room, kept⟩
    · rw [step] at other
      cases other

/-- **The throttle's history** follows the rule of a sliding window, whatever its lease. -/
theorem throttle_follows {o : MxThrottleOptions} (positive : 1 ≤ o.windowLimit)
    {events : List ThrottleEvent} (timely : TimelyEvents events) {now : ℕ}
    (past : ∀ event ∈ events, event.time ≤ now) :
    Follows o.windowLimit o.windowMs (throttleLog o events) now ∧
      Keeps o.windowMs (events.filterMap (·.member?))
        (events.foldl (answerEvent o) (.none, [])).1.window
        (acceptedTimes (throttleLog o events)) now := by
  rw [throttleLog]
  induction events using List.reverseRecOn generalizing now with
  | nil =>
      exact ⟨.start now, (Keeps.empty o.windowMs).wait (Nat.zero_le now) (List.Subset.refl _)⟩
  | append_singleton events event ih =>
      have before : ∀ past ∈ events, past.time ≤ event.time := fun past member =>
        (List.pairwise_append.1 timely.sorted).2.2 past member event (List.mem_singleton_self event)
      have distinct := timely.distinct
      rw [List.filterMap_append, List.nodup_append] at distinct
      obtain ⟨follows, keeps⟩ :=
        ih ⟨(List.pairwise_append.1 timely.sorted).1, distinct.1⟩ before
      have le : event.time ≤ now :=
        past event (List.mem_append_right _ (List.mem_singleton_self event))
      rw [List.foldl_append, List.foldl_cons, List.foldl_nil, List.filterMap_append]
      generalize events.foldl (answerEvent o) (.none, []) = s at follows keeps
      cases event with
      | release now token =>
          rw [answerEvent, (releaseScript_lease now token s.1).1]
          exact ⟨follows.wait le, keeps.wait le (List.subset_append_left _ _)⟩
      | acquire at_ token =>
          have new : token ∉ events.filterMap (·.member?) := fun member =>
            distinct.2.2 _ member _ (List.mem_singleton_self token) rfl
          have answered := acquire_follows positive follows keeps new
          exact ⟨answered.1.wait le, answered.2.wait le (List.Subset.refl _)⟩

/-! ## The lease -/

theorem getKey_eq_some {now : ℕ} {key : Option StringKey} {found : StringKey} :
    getKey now key = some found ↔ key = some found ∧ ∀ at_ ∈ found.expiresAt, now ≤ at_ := by
  rw [getKey, Option.filter_eq_some_iff]
  simp

/-- What is found under a key later was found there before. -/
theorem getKey_earlier {now later : ℕ} (le : now ≤ later) {key : Option StringKey}
    {found : StringKey} (live : getKey later key = some found) : getKey now key = some found := by
  obtain ⟨is, within⟩ := getKey_eq_some.1 live
  exact getKey_eq_some.2 ⟨is, fun at_ member => le.trans (within at_ member)⟩

/-- A release leaves every lease but that of its token. -/
theorem releaseScript_live {t now : ℕ} (le : t ≤ now) {token : String} {keys : HostKeys}
    {held : StringKey} :
    getKey now (releaseScript t token keys).lease = some held ↔
      getKey now keys.lease = some held ∧ held.value ≠ token := by
  rw [releaseScript]
  cases found : getKey t keys.lease with
  | none =>
      refine (and_iff_left_of_imp fun live => ?_).symm
      rw [getKey_earlier le live] at found
      cases found
  | some here =>
      have is := (getKey_eq_some.1 found).1
      have same (live : getKey now keys.lease = some held) : held = here :=
        Option.some.inj ((getKey_earlier le live).symm.trans found)
      simp only
      split
      · rename_i own
        refine ⟨by rintro ⟨⟩, ?_⟩
        rintro ⟨live, other⟩
        exact absurd (same live ▸ own) other
      · rename_i other
        exact ⟨fun live => ⟨live, same live ▸ other⟩, fun both => both.1⟩

/-- A call of `acquire` leaves every live lease, and may add its own. -/
theorem acquireScript_live {o : MxThrottleOptions} {t now : ℕ} (le : t ≤ now) {token : String}
    {keys : HostKeys} {held : StringKey} :
    getKey now (acquireScript o t token keys).2.lease = some held ↔
      getKey now keys.lease = some held ∨
        (acquireScript o t token keys).1 = .acquired ∧ held = setPx t o.leaseTtlMs token ∧
          now ≤ t + o.leaseTtlMs := by
  rcases acquireScript_cases o t token keys with
    ⟨_, ttl, -, eq⟩ | ⟨-, retry, window, -, eq⟩ | ⟨free, window, -, eq⟩
  · simp [eq]
  · simp [eq]
  · rw [eq]
    have nothing : getKey now keys.lease ≠ some held := fun live => by
      rw [getKey_earlier le live] at free
      cases free
    simp only [nothing, getKey_eq_some, Option.some.injEq, false_or, true_and]
    constructor
    · rintro ⟨rfl, within⟩
      exact ⟨rfl, within _ rfl⟩
    · rintro ⟨rfl, within⟩
      refine ⟨rfl, ?_⟩
      intro at_ member
      obtain rfl := Option.some.inj member
      exact within

/-- The keys after the events. -/
def hostKeys (o : MxThrottleOptions) (events : List ThrottleEvent) : HostKeys :=
  (events.foldl (answerEvent o) (.none, [])).1

/-- The log of one more call. -/
theorem throttleLog_acquire (o : MxThrottleOptions) (events : List ThrottleEvent) (now : ℕ)
    (token : String) :
    throttleLog o (events ++ [.acquire now token]) = throttleLog o events ++
      [(now, throttleAnswer o (acquireScript o now token (hostKeys o events)).1)] := by
  rw [throttleLog, List.foldl_append]
  rfl

/-- The last call was told so. -/
def LastAnswer (o : MxThrottleOptions) (events : List ThrottleEvent) (now : ℕ) (token : String)
    (answer : Answer) : Prop :=
  throttleLog o (events ++ [.acquire now token]) = throttleLog o events ++ [(now, answer)]

theorem lastAnswer_iff {o : MxThrottleOptions} {events : List ThrottleEvent} {now : ℕ}
    {token : String} {answer : Answer} :
    LastAnswer o events now token answer ↔
      throttleAnswer o (acquireScript o now token (hostKeys o events)).1 = answer := by
  rw [LastAnswer, throttleLog_acquire]
  simp

/-- An earlier call with this token was accepted, the lease it got is not over at `now`, and it was
not given back. -/
def Leased (o : MxThrottleOptions) (events : List ThrottleEvent) (now at_ : ℕ) (token : String) :
    Prop :=
  ∃ first since, events = first ++ .acquire at_ token :: since ∧
    LastAnswer o first at_ token .accepted ∧ now ≤ at_ + o.leaseTtlMs ∧
    ∀ t, ThrottleEvent.release t token ∉ since

theorem leased_concat {o : MxThrottleOptions} {events : List ThrottleEvent} {event : ThrottleEvent}
    {now at_ : ℕ} {token : String} :
    Leased o (events ++ [event]) now at_ token ↔
      (Leased o events now at_ token ∧ ∀ t, event ≠ .release t token) ∨
        event = .acquire at_ token ∧ LastAnswer o events at_ token .accepted ∧
          now ≤ at_ + o.leaseTtlMs := by
  constructor
  · rintro ⟨first, since, cut, accepted, within, kept⟩
    rcases List.eq_nil_or_concat since with rfl | ⟨since, last, rfl⟩
    · obtain ⟨rfl, same⟩ := List.append_inj' cut rfl
      exact .inr ⟨List.singleton_inj.1 same, accepted, within⟩
    · rw [List.concat_eq_append] at cut kept
      rw [← List.cons_append, ← List.append_assoc] at cut
      obtain ⟨rfl, same⟩ := List.append_inj' cut rfl
      obtain rfl := List.singleton_inj.1 same
      refine .inl ⟨⟨first, since, rfl, accepted, within, ?_⟩, ?_⟩
      · exact fun t member => kept t (List.mem_append_left _ member)
      · rintro t rfl
        exact kept t (List.mem_append_right _ (List.mem_singleton_self _))
  · rintro (⟨⟨first, since, rfl, accepted, within, kept⟩, other⟩ | ⟨rfl, accepted, within⟩)
    · refine ⟨first, since ++ [event], by simp, accepted, within, ?_⟩
      intro t member
      rcases List.mem_append.1 member with old | new
      · exact kept t old
      · exact other t (List.mem_singleton.1 new).symm
    · exact ⟨events, [], rfl, accepted, within, fun _ => List.not_mem_nil⟩

/-- **The lease** that is found under the key is the one of an earlier call. -/
theorem lease_live_iff {o : MxThrottleOptions} {events : List ThrottleEvent}
    (sorted : events.Pairwise fun a b => a.time ≤ b.time) {now : ℕ}
    (past : ∀ event ∈ events, event.time ≤ now) {held : StringKey} :
    getKey now (hostKeys o events).lease = some held ↔
      ∃ at_ token, held = setPx at_ o.leaseTtlMs token ∧ Leased o events now at_ token := by
  induction events using List.reverseRecOn with
  | nil =>
      refine ⟨by rintro ⟨⟩, ?_⟩
      rintro ⟨_, _, _, first, since, cut, -⟩
      simp at cut
  | append_singleton events event ih =>
      have le : event.time ≤ now :=
        past event (List.mem_append_right _ (List.mem_singleton_self event))
      have before := ih (List.pairwise_append.1 sorted).1 fun e member =>
        past e (List.mem_append_left _ member)
      simp only [leased_concat]
      cases event with
      | release t token =>
          have keys : hostKeys o (events ++ [.release t token]) =
              releaseScript t token (hostKeys o events) := by
            rw [hostKeys, List.foldl_append]
            rfl
          rw [keys, releaseScript_live (show t ≤ now from le), before]
          constructor
          · rintro ⟨⟨at_, token', rfl, leased⟩, other⟩
            refine ⟨at_, token', rfl, .inl ⟨leased, ?_⟩⟩
            rintro t' same
            cases same
            exact other rfl
          · rintro ⟨at_, token', rfl, ⟨leased, other⟩ | ⟨wrong, -⟩⟩
            · exact ⟨⟨at_, token', rfl, leased⟩, fun same => other t (same ▸ rfl)⟩
            · cases wrong
      | acquire t token =>
          have keys : hostKeys o (events ++ [.acquire t token]) =
              (acquireScript o t token (hostKeys o events)).2 := by
            rw [hostKeys, List.foldl_append]
            rfl
          have accepted : LastAnswer o events t token .accepted ↔
              (acquireScript o t token (hostKeys o events)).1 = .acquired := by
            rw [lastAnswer_iff]
            cases (acquireScript o t token (hostKeys o events)).1 <;> simp [throttleAnswer]
          rw [keys, acquireScript_live (show t ≤ now from le), before]
          constructor
          · rintro (⟨at_, token', is, leased⟩ | ⟨acquired, is, within⟩)
            · exact ⟨at_, token', is, .inl ⟨leased, fun _ => by simp⟩⟩
            · exact ⟨t, token, is, .inr ⟨rfl, accepted.2 acquired, within⟩⟩
          · rintro ⟨at_, token', is, ⟨leased, -⟩ | ⟨same, there, within⟩⟩
            · exact .inl ⟨at_, token', is, leased⟩
            · cases same
              exact .inr ⟨accepted.1 there, is, within⟩

/-- **A call is turned away for the lease** exactly when an earlier call holds it. -/
theorem throttle_busy_iff {o : MxThrottleOptions} {events : List ThrottleEvent}
    (sorted : events.Pairwise fun a b => a.time ≤ b.time) {now : ℕ}
    (past : ∀ event ∈ events, event.time ≤ now) {token : String} :
    LastAnswer o events now token .busy ↔ ∃ at_ holder, Leased o events now at_ holder := by
  have held : LastAnswer o events now token .busy ↔
      ∃ held, getKey now (hostKeys o events).lease = some held := by
    rw [lastAnswer_iff]
    rcases acquireScript_cases o now token (hostKeys o events) with
      ⟨held, ttl, live, eq⟩ | ⟨free, retry, window, -, eq⟩ | ⟨free, window, -, eq⟩
    · simp [eq, live, throttleAnswer]
    · simp [eq, free, throttleAnswer]
    · simp [eq, free, throttleAnswer]
  simp only [held, lease_live_iff sorted past]
  constructor
  · rintro ⟨_, at_, holder, -, leased⟩
    exact ⟨at_, holder, leased⟩
  · rintro ⟨at_, holder, leased⟩
    exact ⟨_, at_, holder, rfl, leased⟩

end Tozalist.Worker
