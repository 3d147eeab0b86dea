/-
# Tozalist.Theory.SlidingWindow -- at most so many in any window

A limiter answers calls at times that do not go back: it accepts, or it refuses and may say
how long to wait.  `Follows` is the rule it follows: accept while fewer than `limit` calls
were accepted in the window that ends now, refuse otherwise, and name a delay after which
one of these has left the window.  A call that is turned away for another reason is `busy`; a
limiter that has such a reason states itself when it applies.

`Follows.exact` is what the rule comes to over a whole history: no window ever has more
than `limit` accepted calls, a refused call saw a full window and leaves no trace, and a
caller that waits as told finds room.
-/
import Mathlib.Data.List.Basic
import Mathlib.Algebra.Order.Ring.Nat
import Mathlib.Tactic.Common
import Tozalist.Theory.Chunked

namespace Tozalist.Theory.SlidingWindow

set_option autoImplicit false

open Chunked (Everywhere everywhere_nil everywhere_concat)

/-- What a call is told. -/
inductive Answer where
  | accepted
  /-- by the window, with a delay where one is reported -/
  | refused (delay : Option ℕ)
  /-- for another reason -/
  | busy
  deriving DecidableEq, Repr

/-- The calls so far: their times, and what they were told. -/
abbrev Log : Type := List (ℕ × Answer)

/-- When calls were accepted. -/
def acceptedTimes (log : Log) : List ℕ :=
  (log.filter (·.2 = .accepted)).map (·.1)

@[simp] theorem acceptedTimes_nil : acceptedTimes [] = [] := rfl

theorem acceptedTimes_append (log more : Log) :
    acceptedTimes (log ++ more) = acceptedTimes log ++ acceptedTimes more := by
  rw [acceptedTimes, List.filter_append, List.map_append, acceptedTimes, acceptedTimes]

@[simp] theorem acceptedTimes_accepted (t : ℕ) : acceptedTimes [(t, .accepted)] = [t] := rfl

@[simp] theorem acceptedTimes_refused (t : ℕ) (delay : Option ℕ) :
    acceptedTimes [(t, .refused delay)] = [] := rfl

@[simp] theorem acceptedTimes_busy (t : ℕ) : acceptedTimes [(t, .busy)] = [] := rfl

/-- How many times lie in the window `(t - window, t]`. -/
def inWindow (window t : ℕ) (times : List ℕ) : ℕ :=
  times.countP fun a => t < a + window ∧ a ≤ t

/-- The times whose window is not over at `now`. -/
def inside (window now : ℕ) (times : List ℕ) : List ℕ := times.filter (now < · + window)

variable {limit window : ℕ}

theorem inside_append (now : ℕ) (times more : List ℕ) :
    inside window now (times ++ more) = inside window now times ++ inside window now more :=
  List.filter_append times more

/-- What is inside later was inside before. -/
theorem inside_inside {now later : ℕ} (le : now ≤ later) (times : List ℕ) :
    inside window later (inside window now times) = inside window later times := by
  rw [inside, inside, List.filter_filter, inside]
  apply List.filter_congr
  intro a _
  simp only [← Bool.decide_and]
  refine decide_eq_decide.2 ⟨fun both => both.1, fun out => ⟨out, by omega⟩⟩

/-- At the end of their window, times that are past are those inside. -/
theorem length_inside {now : ℕ} {times : List ℕ} (past : ∀ a ∈ times, a ≤ now) :
    (inside window now times).length = inWindow window now times := by
  rw [inside, inWindow, ← List.countP_eq_length_filter]
  apply List.countP_congr
  intro a member
  have := past a member
  simp only [decide_eq_true_eq, this, and_true]

/-- When one of the times inside has left, fewer are inside. -/
theorem length_inside_lt {now later : ℕ} (le : now ≤ later) {times : List ℕ} {oldest : ℕ}
    (member : oldest ∈ inside window now times) (out : oldest + window ≤ later) :
    (inside window later times).length < (inside window now times).length := by
  rw [← inside_inside le times, inside]
  refine List.length_filter_lt_length_iff_exists.2 ⟨oldest, member, ?_⟩
  simpa using out

/-- The rule, for one call after the calls before it. -/
def Decided (limit window : ℕ) (before : Log) (call : ℕ × Answer) : Prop :=
  match call.2 with
  | .accepted => (inside window call.1 (acceptedTimes before)).length < limit
  | .refused delay =>
      limit ≤ (inside window call.1 (acceptedTimes before)).length ∧
        ∀ d ∈ delay, ∃ oldest ∈ inside window call.1 (acceptedTimes before),
          oldest + window ≤ call.1 + d
  | .busy => True

/-- A history of a limiter, up to a time. -/
inductive Follows (limit window : ℕ) : Log → ℕ → Prop
  | start (now : ℕ) : Follows limit window [] now
  | wait {log : Log} {now later : ℕ} :
      Follows limit window log now → now ≤ later → Follows limit window log later
  | call {log : Log} {now : ℕ} {answer : Answer} :
      Follows limit window log now → Decided limit window log (now, answer) →
      Follows limit window (log ++ [(now, answer)]) now

/-- No call is of a later time. -/
theorem Follows.past {log : Log} {now : ℕ} (follows : Follows limit window log now) :
    ∀ call ∈ log, call.1 ≤ now := by
  induction follows with
  | start now => exact List.forall_mem_nil _
  | wait _ le ih => exact fun call member => (ih call member).trans le
  | call _ _ ih => exact List.forall_mem_append.2 ⟨ih, List.forall_mem_singleton.2 le_rfl⟩

theorem mem_of_mem_acceptedTimes {log : Log} {a : ℕ} (member : a ∈ acceptedTimes log) :
    (a, Answer.accepted) ∈ log := by
  obtain ⟨⟨_, answer⟩, listed, rfl⟩ := List.mem_map.1 member
  obtain ⟨inside, accepted⟩ := List.mem_filter.1 listed
  have same : answer = .accepted := by simpa using accepted
  exact same ▸ inside

theorem Follows.past_accepted {log : Log} {now : ℕ} (follows : Follows limit window log now) :
    ∀ a ∈ acceptedTimes log, a ≤ now :=
  fun _ member => follows.past _ (mem_of_mem_acceptedTimes member)

/-- Every call was decided by the rule. -/
theorem Follows.decided {log : Log} {now : ℕ} (follows : Follows limit window log now) :
    Everywhere (Decided limit window) log := by
  induction follows with
  | start now => exact everywhere_nil _
  | wait _ _ ih => exact ih
  | call _ decided ih => exact everywhere_concat.2 ⟨ih, decided⟩

/-- And no later than the calls after it. -/
theorem Follows.sorted {log : Log} {now : ℕ} (follows : Follows limit window log now) :
    Everywhere (fun before call => ∀ past ∈ before, past.1 ≤ call.1) log := by
  induction follows with
  | start now => exact everywhere_nil _
  | wait _ _ ih => exact ih
  | call before _ ih => exact everywhere_concat.2 ⟨ih, before.past⟩

/-- **No window** has more than `limit` accepted calls. -/
theorem Follows.bounded {log : Log} {now : ℕ} (follows : Follows limit window log now) (t : ℕ) :
    inWindow window t (acceptedTimes log) ≤ limit := by
  induction follows with
  | start now => exact Nat.zero_le _
  | wait _ _ ih => exact ih
  | call before decided ih =>
      rename_i log now answer
      rw [acceptedTimes_append]
      cases answer with
      | refused delay => simpa using ih
      | busy => simpa using ih
      | accepted =>
          rw [acceptedTimes_accepted, inWindow, List.countP_append, List.countP_singleton]
          by_cases here : t < now + window ∧ now ≤ t
          · -- a window with the new call has no other that was not inside at its time
            have room : (inside window now (acceptedTimes log)).length < limit := decided
            have fewer : (acceptedTimes log).countP (fun a => t < a + window ∧ a ≤ t) ≤
                (inside window now (acceptedTimes log)).length := by
              rw [inside, ← List.countP_eq_length_filter]
              apply List.countP_mono_left
              intro a member inWindow_
              have bounds : t < a + window ∧ a ≤ t := by simpa using inWindow_
              have : now < a + window := by omega
              simpa using this
            rw [if_pos (by simpa using here)]
            omega
          · rw [if_neg (by simpa using here), Nat.add_zero]
            exact ih

/-- A full window is exactly full. -/
theorem Follows.length_inside_le {log : Log} {now : ℕ} (follows : Follows limit window log now)
    (later : ℕ) (le : now ≤ later) : (inside window later (acceptedTimes log)).length ≤ limit := by
  rw [length_inside fun a member => (follows.past_accepted a member).trans le]
  exact follows.bounded later

/-- Histories are closed under taking the calls so far. -/
theorem Follows.before {log : Log} {now : ℕ} (follows : Follows limit window log now) :
    Everywhere (fun before call => Follows limit window before call.1) log := by
  induction follows with
  | start now => exact everywhere_nil _
  | wait _ _ ih => exact ih
  | call before _ ih => exact everywhere_concat.2 ⟨ih, before⟩

/-- What a limiter promises about its history. -/
structure Exact (limit window : ℕ) (log : Log) : Prop where
  /-- no window has more than `limit` accepted calls -/
  bounded : ∀ t, inWindow window t (acceptedTimes log) ≤ limit
  /-- a call is accepted when fewer were accepted in its window -/
  accepted : ∀ before t after, log = before ++ (t, .accepted) :: after →
    inWindow window t (acceptedTimes before) < limit
  /-- and refused only when `limit` calls were: calls that were refused do not count -/
  refused : ∀ before t delay after, log = before ++ (t, .refused delay) :: after →
    inWindow window t (acceptedTimes before) = limit
  /-- a caller that waits as told is not refused again, if no call is accepted in between -/
  waited : ∀ before t d between t' delay' after,
    log = before ++ (t, .refused (some d)) :: between ++ (t', .refused delay') :: after →
    acceptedTimes between = [] → t' < t + d

/-- **The rule** keeps all promises. -/
theorem Follows.exact {log : Log} {now : ℕ} (follows : Follows limit window log now) :
    Exact limit window log := by
  have count (before : Log) (call : ℕ × Answer) (after : Log)
      (eq : log = before ++ call :: after) :
      (inside window call.1 (acceptedTimes before)).length =
        inWindow window call.1 (acceptedTimes before) :=
    length_inside (follows.before before call after eq).past_accepted
  refine ⟨follows.bounded, ?_, ?_, ?_⟩
  · intro before t after eq
    have room := follows.decided before _ after eq
    rw [Decided, count before _ after eq] at room
    exact room
  · intro before t delay after eq
    have full := (follows.decided before _ after eq).1
    rw [count before _ after eq] at full
    exact le_antisymm ((follows.before before _ after eq).bounded t) full
  · intro before t d between t' delay' after eq quiet
    by_contra waited
    rw [List.append_assoc, List.cons_append] at eq
    obtain ⟨full, leaves⟩ := follows.decided before _ _ eq
    obtain ⟨oldest, member, out⟩ := leaves d rfl
    have here := (follows.before before _ _ eq).length_inside_le t le_rfl
    -- nothing was accepted since, so the later call counts what the earlier one saw
    have split_ : log = (before ++ (t, .refused (some d)) :: between) ++
        (t', .refused delay') :: after := by rw [eq, List.append_assoc, List.cons_append]
    have again := (follows.decided _ _ after split_).1
    have same : acceptedTimes (before ++ (t, .refused (some d)) :: between) =
        acceptedTimes before := by
      rw [acceptedTimes_append, ← List.singleton_append, acceptedTimes_append, quiet]
      simp
    rw [same] at again
    have ordered : t ≤ t' := follows.sorted _ _ after split_ _
      (List.mem_append_right before List.mem_cons_self)
    have fewer := length_inside_lt ordered member (by simp only at out; omega)
    simp only at full again
    omega

end Tozalist.Theory.SlidingWindow
