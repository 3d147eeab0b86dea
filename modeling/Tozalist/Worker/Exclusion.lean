/-
# Tozalist.Worker.Exclusion -- one probe at a time on a mail server

The probes of `apps/worker/src/smtp/processor.ts` under the throttle: any number of jobs
acquire the slot of a host, probe through the engine client, and hand the slot back when the
probe is over.  The lease that stands for the slot has a time to live of its own, and the
retries of a call are not bounded by it.

* `Granted.releasesOwn` -- a release frees no lease but the job's own, always;
* `exclusive_iff` -- two probes of a host are never in flight together, exactly in the runs
  in which nobody asks for a host whose probe has outlived its lease and whose window has
  room;
* `exclusive_of_budget` -- so always, with a lease as long as the budget of a call.
-/
import Tozalist.Shared.EngineClient
import Tozalist.Worker.Throttle

namespace Tozalist.Worker

set_option autoImplicit false

open Redis (setPx getKey windowStep)
open Shared (VerifyCall CallEvent smtpTimeoutMs)
open Theory (Run StepOf Transition)

/-! ## The slot of a host -/

/-- The window of the host has as many starts as it takes. -/
def HostKeys.WindowFull (o : MxThrottleOptions) (now : ℕ) (keys : HostKeys) : Prop :=
  o.windowLimit ≤ ((keys.window.live now).zremrangebyscore 0 (now - o.windowMs)).zcard

/-- **Both ways through `acquire`**: the lease or the window is in the way, and no lease is
written, or neither is, and the caller has the lease. -/
theorem acquire_cases (o : MxThrottleOptions) (now : ℕ) (token : String) (keys : HostKeys) :
    (∃ delay later, acquire o now token keys = (.delayed delay, later) ∧
        later.lease = keys.lease ∧ (getKey now keys.lease ≠ none ∨ keys.WindowFull o now)) ∨
      (getKey now keys.lease = none ∧ ¬ keys.WindowFull o now ∧
        ∃ window, acquire o now token keys =
          (.allowed token, ⟨some (setPx now o.leaseTtlMs token), window⟩)) := by
  rw [acquire]
  rcases acquireScript_cases o now token keys with
    ⟨held, ttl, live, eq⟩ | ⟨-, retry, window, step, eq⟩ | ⟨free, window, step, eq⟩
  · rw [eq]
    exact .inl ⟨_, keys, rfl, rfl, .inl (by simp [live])⟩
  · rw [eq]
    refine .inl ⟨_, _, rfl, rfl, .inr ?_⟩
    by_contra room
    rw [HostKeys.WindowFull] at room
    rw [windowStep, if_neg room] at step
    cases congrArg Prod.fst step
  · rw [eq]
    refine .inr ⟨free, fun full => ?_, window, rfl⟩
    rw [HostKeys.WindowFull] at full
    rw [windowStep, if_pos full] at step
    cases congrArg Prod.fst step

/-- A lease is found until its time to live is over. -/
theorem getKey_setPx (now at_ ms : ℕ) (token : String) :
    getKey now (some (setPx at_ ms token)) ≠ none ↔ now ≤ at_ + ms := by
  simp [getKey, setPx, Option.filter_some]

/-! ## Jobs on hosts -/

/-- A lease that a job was given on a host. -/
structure Grant where
  host : String
  job : ℕ
  token : String
  deriving DecidableEq, Repr

/-- A probe in flight. -/
structure Probe where
  grant : Grant
  acquiredAt : ℕ
  call : VerifyCall
  deriving DecidableEq, Repr

/-- The clock, the keys of each host, the leases given out so far, the probes in flight, and
the leases of jobs whose probe is over. -/
structure Probing where
  now : ℕ
  keys : String → HostKeys
  granted : List Grant
  probes : List Probe
  returning : List Grant

inductive ProbingAction where
  /-- the clock advances -/
  | tick (later : ℕ)
  /-- `throttle.acquire` -/
  | acquire (host : String) (job : ℕ) (token : String)
  /-- the engine client gets on with the call of the probe -/
  | call (token : String) (event : CallEvent)
  /-- `throttle.release`, once the probe is over -/
  | release (grant : Grant)
  /-- the worker dies, and its call with it -/
  | die (token : String)
  deriving DecidableEq, Repr

namespace Probing

/-- A token is drawn once, a call goes its way within its budgets, and a job gives back what
it was given. -/
def Allows (s : Probing) : ProbingAction → Prop
  | .tick later => s.now ≤ later ∧ ∀ p ∈ s.probes, p.call.Pending smtpTimeoutMs later
  | .acquire _ _ token => ∀ g ∈ s.granted, g.token ≠ token
  | .call token event => ∃ p ∈ s.probes, p.grant.token = token ∧ p.call.Expects s.now event
  | .release grant => grant ∈ s.returning
  | .die _ => True

instance (s : Probing) : (a : ProbingAction) → Decidable (s.Allows a)
  | .tick later =>
      inferInstanceAs (Decidable (s.now ≤ later ∧ ∀ p ∈ s.probes, p.call.Pending _ later))
  | .acquire _ _ token => inferInstanceAs (Decidable (∀ g ∈ s.granted, g.token ≠ token))
  | .call token event =>
      inferInstanceAs (Decidable (∃ p ∈ s.probes, p.grant.token = token ∧ p.call.Expects _ event))
  | .release grant => inferInstanceAs (Decidable (grant ∈ s.returning))
  | .die _ => inferInstanceAs (Decidable True)

/-- The keys of one host are written. -/
def setKeys (s : Probing) (host : String) (keys : HostKeys) : Probing :=
  { s with keys := Function.update s.keys host keys }

/-- The probe with the token gets on with its call. -/
def advance (now : ℕ) (token : String) (event : CallEvent) (p : Probe) : Probe :=
  if p.grant.token = token then { p with call := p.call.after now event } else p

/-- One step. -/
def after (o : MxThrottleOptions) (s : Probing) : ProbingAction → Probing
  | .tick later => { s with now := later }
  | .acquire host job token =>
      match acquire o s.now token (s.keys host) with
      | (.allowed leaseToken, keys) =>
          { s.setKeys host keys with
            granted := ⟨host, job, leaseToken⟩ :: s.granted
            probes := ⟨⟨host, job, leaseToken⟩, s.now, .asking s.now⟩ :: s.probes }
      | (.delayed _, keys) => s.setKeys host keys
  | .call token event =>
      let probes := s.probes.map (advance s.now token event)
      { s with
        probes := probes.filter (·.call.InFlight)
        returning := (probes.filter fun p => ¬ p.call.InFlight).map (·.grant) ++ s.returning }
  | .release grant =>
      { s.setKeys grant.host (releaseScript s.now grant.token (s.keys grant.host)) with
        returning := s.returning.erase grant }
  | .die token =>
      { s with
        probes := s.probes.filter (·.grant.token ≠ token)
        returning := s.returning.filter (·.token ≠ token) }

/-- Nothing is in flight, and no host has keys. -/
def Initial (s : Probing) : Prop :=
  (∀ host, s.keys host = .none) ∧ s.granted = [] ∧ s.probes = [] ∧ s.returning = []

/-- No two probes in flight are on one host. -/
def Exclusive (s : Probing) : Prop := s.probes.Pairwise fun p q => p.grant.host ≠ q.grant.host

/-- The lease of the host was given to the job. -/
def Owns (s : Probing) (host : String) (job : ℕ) : Prop :=
  ∃ held, (s.keys host).lease = some held ∧ ⟨host, job, held.value⟩ ∈ s.granted

/-- A release leaves every other job its lease. -/
def ReleasesOwn (s : Probing) (a : ProbingAction) (t : Probing) : Prop :=
  match a with
  | .release grant => ∀ host job, job ≠ grant.job → s.Owns host job → t.Owns host job
  | _ => True

/-- Nobody asks for a host while a probe of it has outlived its lease, unless the window turns
everybody away. -/
def LeaseCovers (o : MxThrottleOptions) (s : Probing) : ProbingAction → Prop
  | .acquire host _ _ =>
      (s.keys host).WindowFull o s.now ∨
        ∀ p ∈ s.probes, p.grant.host = host → s.now ≤ p.acquiredAt + o.leaseTtlMs
  | _ => True

/-! ## Leases in hand -/

/-- The leases that jobs have and have not given back. -/
def inHand (s : Probing) : List Grant := s.probes.map (·.grant) ++ s.returning

/-- Every lease in hand was given out, and no two have one token. -/
structure Granted (s : Probing) : Prop where
  given : ∀ g ∈ s.inHand, g ∈ s.granted
  distinct : (s.inHand.map (·.token)).Nodup
  tokens : (s.granted.map (·.token)).Nodup

/-- A step that gives no lease out. -/
theorem Granted.of_subperm {s t : Probing} (granted : Granted s) (same : t.granted = s.granted)
    (fewer : t.inHand.Subperm s.inHand) : Granted t := by
  refine ⟨?_, ?_, same ▸ granted.tokens⟩
  · intro g member
    rw [same]
    exact granted.given g (fewer.subset member)
  · obtain ⟨_, perm, part⟩ := fewer
    exact (perm.map _).nodup_iff.1 (granted.distinct.sublist (part.map _))

theorem advance_grant (now : ℕ) (token : String) (event : CallEvent) (p : Probe) :
    (advance now token event p).grant = p.grant := by
  rw [advance]
  split <;> rfl

theorem advance_acquiredAt (now : ℕ) (token : String) (event : CallEvent) (p : Probe) :
    (advance now token event p).acquiredAt = p.acquiredAt := by
  rw [advance]
  split <;> rfl

/-- A call that gets on moves its lease to those being returned, or leaves it. -/
theorem inHand_call (o : MxThrottleOptions) (s : Probing) (token : String) (event : CallEvent) :
    (s.after o (.call token event)).inHand.Perm s.inHand := by
  have parts := List.filter_append_perm (fun p : Probe => decide p.call.InFlight)
    (s.probes.map (advance s.now token event))
  have grants := parts.map (·.grant)
  rw [List.map_append, List.map_map] at grants
  have same : ((·.grant) ∘ advance s.now token event : Probe → Grant) = (·.grant) :=
    funext fun p => advance_grant s.now token event p
  rw [same] at grants
  have all := grants.append_right s.returning
  rw [List.append_assoc] at all
  simpa [inHand, after] using all

theorem Granted.start {s : Probing} (initial : Initial s) : Granted s := by
  obtain ⟨-, granted, probes, returning⟩ := initial
  constructor <;> simp [inHand, granted, probes, returning]

/-- What an `acquire` makes of the state. -/
theorem after_acquire (o : MxThrottleOptions) (s : Probing) (host : String) (job : ℕ)
    (token : String) :
    (∃ delay keys, acquire o s.now token (s.keys host) = (.delayed delay, keys) ∧
        keys.lease = (s.keys host).lease ∧
        (getKey s.now (s.keys host).lease ≠ none ∨ (s.keys host).WindowFull o s.now) ∧
        s.after o (.acquire host job token) = s.setKeys host keys) ∨
      (getKey s.now (s.keys host).lease = none ∧ ¬ (s.keys host).WindowFull o s.now ∧
        ∃ keys : HostKeys, keys.lease = some (setPx s.now o.leaseTtlMs token) ∧
          s.after o (.acquire host job token) =
            { s.setKeys host keys with
              granted := ⟨host, job, token⟩ :: s.granted
              probes := ⟨⟨host, job, token⟩, s.now, .asking s.now⟩ :: s.probes }) := by
  rw [after]
  rcases acquire_cases o s.now token (s.keys host) with
    ⟨delay, keys, eq, same, why⟩ | ⟨free, room, window, eq⟩
  · rw [eq]
    exact .inl ⟨delay, keys, rfl, same, why, rfl⟩
  · rw [eq]
    exact .inr ⟨free, room, _, rfl, rfl⟩

/-- **Every step** keeps account of the leases. -/
theorem Granted.step {o : MxThrottleOptions} {s : Probing} {a : ProbingAction}
    (granted : Granted s) (allowed : s.Allows a) : Granted (s.after o a) := by
  cases a with
  | tick later => exact granted.of_subperm rfl (List.Subperm.refl _)
  | call token event => exact granted.of_subperm rfl (inHand_call o s token event).subperm
  | release grant =>
      exact granted.of_subperm rfl ((List.erase_sublist).append_left _).subperm
  | die token =>
      refine granted.of_subperm rfl (List.Sublist.subperm ?_)
      exact (List.filter_sublist.map _).append List.filter_sublist
  | acquire host job token =>
      rcases s.after_acquire o host job token with ⟨_, _, -, -, -, eq⟩ | ⟨-, -, _, -, eq⟩
      · rw [eq]
        exact granted.of_subperm rfl (List.Subperm.refl _)
      · -- a token that nobody has had
        rw [eq]
        refine ⟨?_, ?_, ?_⟩
        · exact List.forall_mem_cons.2
            ⟨List.mem_cons_self, fun g member => List.mem_cons_of_mem _ (granted.given g member)⟩
        · refine List.nodup_cons.2 ⟨fun member => ?_, granted.distinct⟩
          obtain ⟨g, held, same⟩ := List.mem_map.1 member
          exact allowed g (granted.given g held) same
        · refine List.nodup_cons.2 ⟨fun member => ?_, granted.tokens⟩
          obtain ⟨g, given, same⟩ := List.mem_map.1 member
          exact allowed g given same

/-- The leases in hand of probes and of jobs that are done are different ones. -/
theorem Granted.token_ne {s : Probing} (granted : Granted s) {p : Probe} {g : Grant}
    (probing : p ∈ s.probes) (done : g ∈ s.returning) : p.grant.token ≠ g.token := by
  have distinct := granted.distinct
  rw [inHand, List.map_append, List.nodup_append] at distinct
  exact distinct.2.2 _ (List.mem_map_of_mem (List.mem_map_of_mem probing)) _
    (List.mem_map_of_mem done)

/-- A token is of one probe. -/
theorem Granted.probe_eq {s : Probing} (granted : Granted s) {p q : Probe} (first : p ∈ s.probes)
    (second : q ∈ s.probes) (same : p.grant.token = q.grant.token) : p = q := by
  have distinct := granted.distinct
  rw [inHand, List.map_append, List.map_map] at distinct
  exact List.inj_on_of_nodup_map (List.nodup_append.1 distinct).1 first second same

/-- **A release frees its own lease**, or none. -/
theorem Granted.releasesOwn {o : MxThrottleOptions} {s : Probing} {a : ProbingAction}
    (granted : Granted s) (allowed : s.Allows a) : ReleasesOwn s a (s.after o a) := by
  cases a with
  | release grant =>
      rintro host job other ⟨held, lease, given⟩
      by_cases here : host = grant.host
      · subst here
        rcases (releaseScript_lease s.now grant.token (s.keys grant.host)).2 with
          same | ⟨freed, stored, own, -⟩
        · refine ⟨held, ?_, given⟩
          rw [after, setKeys]
          simpa [same] using lease
        · -- one token is of one lease only
          obtain rfl : held = freed := Option.some.inj (lease.symm.trans stored)
          have mine := granted.given grant (List.mem_append_right _ allowed)
          have one := List.inj_on_of_nodup_map granted.tokens given mine own
          exact absurd (congrArg Grant.job one) other
      · refine ⟨held, ?_, given⟩
        rw [after, setKeys]
        simpa [Function.update_of_ne here] using lease
  | _ => trivial

/-! ## The lease of a probe -/

/-- One probe on a host, and the host's lease is its lease. -/
structure Held (o : MxThrottleOptions) (s : Probing) : Prop where
  granted : Granted s
  exclusive : Exclusive s
  lease : ∀ p ∈ s.probes,
    (s.keys p.grant.host).lease = some (setPx p.acquiredAt o.leaseTtlMs p.grant.token)

theorem Held.start {o : MxThrottleOptions} {s : Probing} (initial : Initial s) : Held o s := by
  refine ⟨.start initial, ?_, ?_⟩
  · rw [Exclusive, initial.2.2.1]
    exact .nil
  · rw [initial.2.2.1]
    exact List.forall_mem_nil _

/-- A host that has a probe has a lease, until its time to live is over. -/
theorem Held.busy {o : MxThrottleOptions} {s : Probing} (held : Held o s) {p : Probe}
    (probing : p ∈ s.probes) :
    getKey s.now (s.keys p.grant.host).lease ≠ none ↔ s.now ≤ p.acquiredAt + o.leaseTtlMs := by
  rw [held.lease p probing]
  exact getKey_setPx _ _ _ _

theorem Held.acquire {o : MxThrottleOptions} {s : Probing} (held : Held o s) {host : String}
    {job : ℕ} {token : String} (allowed : s.Allows (.acquire host job token))
    (covers : LeaseCovers o s (.acquire host job token)) :
    Held o (s.after o (.acquire host job token)) := by
  have granted := held.granted.step (o := o) allowed
  rcases s.after_acquire o host job token with
    ⟨_, keys, -, same, -, eq⟩ | ⟨free, room, keys, new, eq⟩
  · rw [eq] at granted ⊢
    refine ⟨granted, held.exclusive, ?_⟩
    intro p probing
    rw [← held.lease p probing]
    by_cases here : p.grant.host = host
    · simp [setKeys, here, same]
    · simp [setKeys, Function.update_of_ne here]
  · -- no probe of the host can be in flight
    have alone : ∀ p ∈ s.probes, p.grant.host ≠ host := by
      rintro p probing rfl
      exact (held.busy probing).2 (covers.resolve_left room p probing rfl) free
    rw [eq] at granted ⊢
    refine ⟨granted, ?_, List.forall_mem_cons.2 ⟨?_, ?_⟩⟩
    · exact List.pairwise_cons.2 ⟨fun p probing => (alone p probing).symm, held.exclusive⟩
    · simp [setKeys, new]
    · intro p probing
      rw [← held.lease p probing]
      simp [setKeys, Function.update_of_ne (alone p probing)]

theorem Held.call {o : MxThrottleOptions} {s : Probing} (held : Held o s) {token : String}
    {event : CallEvent} (allowed : s.Allows (.call token event)) :
    Held o (s.after o (.call token event)) := by
  refine ⟨held.granted.step allowed, ?_, ?_⟩
  · refine List.Pairwise.filter _ (List.pairwise_map.2 (held.exclusive.imp ?_))
    intro p q apart
    rwa [advance_grant, advance_grant]
  · intro p probing
    obtain ⟨q, there, rfl⟩ := List.mem_map.1 (List.mem_of_mem_filter probing)
    rw [advance_grant, advance_acquiredAt]
    exact held.lease q there

theorem Held.release {o : MxThrottleOptions} {s : Probing} (held : Held o s) {grant : Grant}
    (allowed : s.Allows (.release grant)) : Held o (s.after o (.release grant)) := by
  refine ⟨held.granted.step allowed, held.exclusive, ?_⟩
  intro p probing
  rw [← held.lease p probing]
  by_cases here : p.grant.host = grant.host
  · rcases (releaseScript_lease s.now grant.token (s.keys grant.host)).2 with
      same | ⟨freed, stored, own, -⟩
    · simp [after, setKeys, here, same]
    · -- that lease is the probe's, and its token is not the one returned
      have lease := held.lease p probing
      rw [here, stored] at lease
      have same : p.grant.token = grant.token :=
        (congrArg (·.value) (Option.some.inj lease)).symm.trans own
      exact absurd same (held.granted.token_ne probing allowed)
  · simp [after, setKeys, Function.update_of_ne here]

/-- **Every covered step** keeps the lease with its probe. -/
theorem Held.step {o : MxThrottleOptions} {s : Probing} {a : ProbingAction} (held : Held o s)
    (allowed : s.Allows a) (covers : LeaseCovers o s a) : Held o (s.after o a) := by
  cases a with
  | tick later => exact ⟨held.granted.step allowed, held.exclusive, held.lease⟩
  | acquire host job token => exact held.acquire allowed covers
  | call token event => exact held.call allowed
  | release grant => exact held.release allowed
  | die token =>
      exact ⟨held.granted.step allowed, held.exclusive.filter _,
        fun p probing => held.lease p (List.mem_of_mem_filter probing)⟩

/-- A slot that is given out while a probe is in flight is given to two. -/
theorem Held.covers_of_exclusive {o : MxThrottleOptions} {s : Probing} {a : ProbingAction}
    (held : Held o s) (exclusive : Exclusive (s.after o a)) : LeaseCovers o s a := by
  cases a with
  | acquire host job token =>
      rcases s.after_acquire o host job token with ⟨_, _, -, -, why, -⟩ | ⟨-, -, _, -, eq⟩
      · rcases why with busy | full
        · refine .inr ?_
          rintro p probing rfl
          exact (held.busy probing).1 busy
        · exact .inl full
      · rw [eq] at exclusive
        refine .inr fun p probing here => ?_
        exact absurd here.symm ((List.pairwise_cons.1 exclusive).1 p probing)
  | _ => trivial

/-! ## Budgets -/

/-- Every probe is somewhere within the budget of its call. -/
def Budgeted (s : Probing) : Prop :=
  ∀ p ∈ s.probes, p.call.Within smtpTimeoutMs p.acquiredAt ∧
    p.call.Pending smtpTimeoutMs s.now ∧ p.call.InFlight

theorem Budgeted.step {o : MxThrottleOptions} {s : Probing} {a : ProbingAction}
    (budgeted : Budgeted s) (distinct : Granted s) (allowed : s.Allows a) :
    Budgeted (s.after o a) := by
  cases a with
  | tick later =>
      intro p probing
      obtain ⟨within, -, inFlight⟩ := budgeted p probing
      exact ⟨within, allowed.2 p probing, inFlight⟩
  | acquire host job token =>
      rcases s.after_acquire o host job token with ⟨_, _, -, -, -, eq⟩ | ⟨-, -, _, -, eq⟩
      · rw [eq]
        exact budgeted
      · rw [eq]
        exact List.forall_mem_cons.2 ⟨⟨rfl, le_rfl, trivial⟩, budgeted⟩
  | call token event =>
      intro p probing
      obtain ⟨there, inFlight⟩ := List.mem_filter.1 probing
      obtain ⟨q, before, rfl⟩ := List.mem_map.1 there
      refine ⟨?_, ?_, by simpa using inFlight⟩
      all_goals
        obtain ⟨within, pending, -⟩ := budgeted q before
        obtain ⟨r, calling, named, expects⟩ := allowed
        rw [advance]
        split
      · rename_i mine
        obtain rfl := distinct.probe_eq calling before (named.trans mine.symm)
        exact within.after pending expects
      · exact within
      · rename_i mine
        obtain rfl := distinct.probe_eq calling before (named.trans mine.symm)
        exact VerifyCall.pending_after expects
      · exact pending
  | release grant => exact budgeted
  | die token => exact fun p probing => budgeted p (List.mem_of_mem_filter probing)

theorem Budgeted.start {s : Probing} (initial : Initial s) : Budgeted s := by
  rw [Budgeted, initial.2.2.1]
  exact List.forall_mem_nil _

/-! ## Runs -/

section Runs

variable {o : MxThrottleOptions} {s t : Probing} {tr : List (Transition Probing ProbingAction)}

/-- Every state of a run keeps account of the leases, and of the time that calls take. -/
theorem accounted (initial : Initial s) (run : Run (StepOf Allows (after o)) s tr t) :
    ∀ e ∈ tr, Granted e.source ∧ Budgeted e.source := by
  have keep : ∀ s a t, Granted s ∧ Budgeted s → StepOf Allows (after o) s a t →
      Granted t ∧ Budgeted t := by
    rintro s a _ ⟨granted, budgeted⟩ ⟨allowed, rfl⟩
    exact ⟨granted.step allowed, budgeted.step granted allowed⟩
  exact fun e member => ((run.throughout keep ⟨.start initial, .start initial⟩).2 e member).1

/-- The lease keeps the jobs apart exactly while it covers their probes. -/
theorem exclusive_iff_covers (initial : Initial s) (run : Run (StepOf Allows (after o)) s tr t) :
    (∀ e ∈ tr, Exclusive e.target) ↔ ∀ e ∈ tr, LeaseCovers o e.source e.action := by
  refine run.guarded_iff (Held o) (fun _ _ t => Exclusive t) ?_ ?_ ?_ (Held.start initial)
  · rintro s a _ held covers ⟨allowed, rfl⟩
    exact held.step allowed covers
  · rintro s a _ held covers ⟨allowed, rfl⟩
    exact (held.step allowed covers).exclusive
  · rintro s a _ held ⟨-, rfl⟩ exclusive
    exact held.covers_of_exclusive exclusive

/-- A lease that lasts as long as a call may take covers every probe. -/
theorem exclusive_of_budget (long : VerifyCall.verifyBudgetMs smtpTimeoutMs ≤ o.leaseTtlMs)
    (initial : Initial s) (run : Run (StepOf Allows (after o)) s tr t) :
    ∀ e ∈ tr, Exclusive e.target := by
  apply (exclusive_iff_covers initial run).2
  intro e member
  obtain ⟨-, budgeted⟩ := accounted initial run e member
  match e.action with
  | .acquire host job token =>
      refine .inr fun p probing _ => ?_
      obtain ⟨within, pending, inFlight⟩ := budgeted p probing
      have early := within.le_budget inFlight pending
      omega
  | .tick _ => trivial
  | .call _ _ => trivial
  | .release _ => trivial
  | .die _ => trivial

/-- **One probe on a host**, for every number of jobs and every run within the budgets of the
calls: a release never frees the lease of another job, and no two probes of one host are ever
in flight together exactly when nobody asks for a host whose probe has outlived its lease and
whose window has room. -/
theorem exclusive_iff (initial : Initial s) (run : Run (StepOf Allows (after o)) s tr t) :
    (∀ e ∈ tr, ReleasesOwn e.source e.action e.target) ∧
      ((∀ e ∈ tr, Exclusive e.target) ↔ ∀ e ∈ tr, LeaseCovers o e.source e.action) := by
  refine ⟨?_, exclusive_iff_covers initial run⟩
  intro e member
  obtain ⟨allowed, same⟩ := run.steps e member
  rw [same]
  exact (accounted initial run e member).1.releasesOwn allowed

end Runs

/-! ## A retry that outlasts the lease -/

/-- Nothing has happened yet. -/
def fresh : Probing := ⟨0, fun _ => .none, [], [], []⟩

/-- The first attempt of a probe fails at fourteen seconds, the second is still out when the
lease has run out, and another job asks for the host. -/
def retryBeyondLease : List ProbingAction :=
  [.acquire "mx.example" 1 "a", .call "a" (.breaker true), .tick 14000,
    .call "a" (.reply .threw), .tick 14200, .call "a" .wake, .tick 30001,
    .acquire "mx.example" 2 "b"]

instance (s : Probing) : Decidable s.Exclusive :=
  inferInstanceAs (Decidable (s.probes.Pairwise _))

/-- The second job is given the host, with the first one's probe still in flight. -/
theorem two_probes :
    ∃ tr t, Run (StepOf Allows (after .standard)) fresh tr t ∧
      t.probes.map (·.grant) = [⟨"mx.example", 2, "b"⟩, ⟨"mx.example", 1, "a"⟩] ∧
      ¬ Exclusive t := by
  have executable : Theory.Executable Allows (after .standard) fresh retryBeyondLease := by
    decide +kernel
  obtain ⟨tr, run⟩ := executable.run
  exact ⟨tr, _, run, by decide +kernel, by decide +kernel⟩

theorem exclusive_iff_retryBeyondLease :
    ∃ tr, Run (StepOf Allows (after .standard)) fresh tr
        (retryBeyondLease.foldl (after .standard) fresh) ∧
      (∀ e ∈ tr, ReleasesOwn e.source e.action e.target) ∧
      ((∀ e ∈ tr, Exclusive e.target) ↔ ∀ e ∈ tr, LeaseCovers .standard e.source e.action) := by
  have executable : Theory.Executable Allows (after .standard) fresh retryBeyondLease := by
    decide +kernel
  obtain ⟨tr, run⟩ := executable.run
  exact ⟨tr, run, exclusive_iff ⟨fun _ => rfl, rfl, rfl, rfl⟩ run⟩

end Probing

end Tozalist.Worker
