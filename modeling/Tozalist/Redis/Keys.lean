/-
# Tozalist.Redis.Keys -- the keys the scripts use, and their expiry

A sorted set and a string under a key, with the commands of the Lua scripts.  A command at
a time finds a key gone when its expiry has passed: a script runs at one time, and the clock
of its caller agrees with the one that expires keys.  Times are milliseconds since the
epoch, in a sorted set as scores.

There are two conventions for the millisecond at which an expiry falls.  The server drops a key
once the clock is past it (`now > when`), so the key is still found there, with a `PTTL` of 0:
`ZSet` and `StringKey` follow that, since the scripts over them read `PTTL` and compare scores
with the clock.  `Lasting` is for keys that are only asked whether they are there, under
durations that the source states as such ("for `openMs`"): a key of `d` milliseconds is there in
the `d` milliseconds from its writing on, and gone at the end of them.  The two differ in that
one millisecond.
-/
import Mathlib.Data.List.Basic
import Mathlib.Algebra.Order.Ring.Int
import Mathlib.Tactic.Common

namespace Tozalist.Redis

set_option autoImplicit false

/-! ## Sorted sets -/

/-- A sorted set: members with their scores, and the expiry of the key. -/
structure ZSet where
  entries : List (String × ℕ)
  expiresAt : Option ℕ
  deriving DecidableEq, Repr

namespace ZSet

/-- A key that does not exist. -/
def empty : ZSet := ⟨[], none⟩

/-- What a command finds: the server drops the key after its expiry, not at it. -/
def live (now : ℕ) (z : ZSet) : ZSet :=
  if ∃ at_ ∈ z.expiresAt, at_ < now then empty else z

/-- `ZREMRANGEBYSCORE`. -/
def zremrangebyscore (lo hi : Int) (z : ZSet) : ZSet :=
  { z with entries := z.entries.filter fun e => ¬ (lo ≤ e.2 ∧ (e.2 : Int) ≤ hi) }

/-- `ZCARD`. -/
def zcard (z : ZSet) : ℕ := z.entries.length

/-- The score that `ZRANGE key 0 0 WITHSCORES` gives. -/
def lowestScore (z : ZSet) : Option ℕ := (z.entries.map (·.2)).min?

/-- `ZADD`; a member that is there gets the new score. -/
def zadd (score : ℕ) (member : String) (z : ZSet) : ZSet :=
  { z with entries := z.entries.filter (·.1 ≠ member) ++ [(member, score)] }

/-- `PEXPIRE`. -/
def pexpire (now ms : ℕ) (z : ZSet) : ZSet := { z with expiresAt := some (now + ms) }

/-- The scores, as they were added. -/
def scores (z : ZSet) : List ℕ := z.entries.map (·.2)

theorem lowestScore_mem {z : ZSet} {score : ℕ} (found : z.lowestScore = some score) :
    score ∈ z.scores :=
  List.min?_mem found

theorem length_scores (z : ZSet) : z.scores.length = z.zcard := List.length_map _

/-- Trimming what is too old by `window` keeps the scores whose window is not over. -/
theorem scores_trim (now window : ℕ) (z : ZSet) :
    (z.zremrangebyscore 0 (now - window)).scores = z.scores.filter (now < · + window) := by
  rw [scores, zremrangebyscore, scores, List.filter_map]
  congr 1
  refine List.filter_congr fun e _ => decide_eq_decide.2 ?_
  show ¬ ((0 : Int) ≤ e.2 ∧ (e.2 : Int) ≤ now - window) ↔ now < e.2 + window
  omega

/-- A new member is added behind the others. -/
theorem scores_zadd {z : ZSet} {member : String} (new : ∀ e ∈ z.entries, e.1 ≠ member)
    (score : ℕ) : (z.zadd score member).scores = z.scores ++ [score] := by
  have others : z.entries.filter (·.1 ≠ member) = z.entries :=
    List.filter_eq_self.2 fun e inside => by simpa using new e inside
  rw [scores, zadd, others, List.map_append]
  rfl

end ZSet

/-! ## Strings -/

/-- A string value, and the expiry of its key, if it has one. -/
structure StringKey where
  value : String
  expiresAt : Option ℕ
  deriving DecidableEq, Repr

/-- What `GET` and `EXISTS` find under a key: it is dropped after its expiry, not at it. -/
def getKey (now : ℕ) (key : Option StringKey) : Option StringKey :=
  key.filter fun found => ¬ ∃ at_ ∈ found.expiresAt, at_ < now

/-- `PTTL` of a key that exists; `-1` for one without expiry. -/
def StringKey.pttl (now : ℕ) (found : StringKey) : Int :=
  match found.expiresAt with
  | none => -1
  | some at_ => at_ - now

/-- `SET key value PX ms`. -/
def setPx (now ms : ℕ) (value : String) : StringKey := ⟨value, some (now + ms)⟩

/-! ## Lifetimes -/

/-- A value, and the time from which its key is gone: the end of its lifetime itself, where the
server keeps the key for one millisecond more. -/
structure Lasting (β : Type) where
  value : β
  goneFrom : Option ℕ
  deriving DecidableEq, Repr

namespace Lasting

variable {β : Type}

/-- What a command finds under a key, where one with a lifetime of `d` ms is gone from `d` ms
on. -/
def live (now : ℕ) (key : Option (Lasting β)) : Option (Lasting β) :=
  key.filter fun found => ∀ at_ ∈ found.goneFrom, now < at_

/-- `INCR`: the new count; a lifetime stays. -/
def incr (key : Option (Lasting ℕ)) : Lasting ℕ :=
  match key with
  | none => ⟨1, none⟩
  | some found => { found with value := found.value + 1 }

/-- `PEXPIRE`. -/
def pexpire (now ms : ℕ) (key : Lasting β) : Lasting β := { key with goneFrom := some (now + ms) }

/-- `SET key value PX ms`. -/
def setPx (now ms : ℕ) (value : β) : Lasting β := ⟨value, some (now + ms)⟩

@[simp] theorem live_none (now : ℕ) : live now (none : Option (Lasting β)) = none := rfl

/-- A key is found until its lifetime is over. -/
@[simp] theorem live_lasting (now at_ : ℕ) (value : β) :
    live now (some ⟨value, some at_⟩) = if now < at_ then some ⟨value, some at_⟩ else none := by
  unfold live
  simp [Option.filter]

end Lasting

end Tozalist.Redis
