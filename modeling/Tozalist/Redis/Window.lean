/-
# Tozalist.Redis.Window -- the sliding window that the scripts share

The three scripts trim a sorted set, count what is left, and add the call when there is
room.  `windowStep` is that part, and `Keeps` what the set is between calls: at any later
time, what trimming leaves in it are the accepted calls whose window is not over.  The expiry
of the key takes nothing that trimming would not.
-/
import Tozalist.Redis.Keys
import Tozalist.Theory.SlidingWindow

namespace Tozalist.Redis

set_option autoImplicit false

open Theory.SlidingWindow

/-- Trim, count, and add the call or name a delay. -/
def windowStep (limit windowMs now : ℕ) (member : String) (key : ZSet) : Option ℕ × ZSet :=
  let trimmed := (key.live now).zremrangebyscore 0 (now - windowMs)
  if limit ≤ trimmed.zcard then
    (some (max 1 (trimmed.lowestScore.getD 0 + windowMs - now)), trimmed)
  else (none, (trimmed.zadd now member).pexpire now windowMs)

/-- The set holds the accepted calls that still count, now and later, and members of earlier
calls only. -/
structure Keeps (windowMs : ℕ) (members : List String) (key : ZSet) (accepted : List ℕ)
    (now : ℕ) : Prop where
  scores : ∀ t, now ≤ t →
    ((key.live t).zremrangebyscore 0 (t - windowMs)).scores = inside windowMs t accepted
  members : ∀ e ∈ key.entries, e.1 ∈ members

variable {limit windowMs : ℕ} {members : List String} {key : ZSet} {accepted : List ℕ} {now : ℕ}

theorem Keeps.empty (windowMs : ℕ) : Keeps windowMs [] .empty [] 0 :=
  ⟨fun t _ => by rw [ZSet.live, ite_self]; rfl, List.forall_mem_nil _⟩

/-- Time passes, and members are used elsewhere. -/
theorem Keeps.wait {later : ℕ} {more : List String}
    (keeps : Keeps windowMs members key accepted now)
    (le : now ≤ later) (sub : members ⊆ more) : Keeps windowMs more key accepted later :=
  ⟨fun t le' => keeps.scores t (le.trans le'), fun e member => sub (keeps.members e member)⟩

theorem live_entries_subset (now : ℕ) (z : ZSet) : (z.live now).entries ⊆ z.entries := by
  rw [ZSet.live]
  split
  · exact List.nil_subset _
  · exact List.Subset.refl _

/-- A refused call trims, and nothing else. -/
theorem Keeps.trim (keeps : Keeps windowMs members key accepted now) :
    Keeps windowMs members ((key.live now).zremrangebyscore 0 (now - windowMs)) accepted now := by
  constructor
  · intro t le
    -- what is trimmed now would be trimmed then, and what has expired is trimmed anyway
    have here := keeps.scores now le_rfl
    rw [ZSet.scores_trim] at here
    have later : inside windowMs t (inside windowMs now accepted) = inside windowMs t accepted :=
      inside_inside le accepted
    rw [ZSet.live]
    split
    · rename_i expired
      have gone : key.live t = .empty := by
        obtain ⟨at_, member, before⟩ := expired
        have expiry : (key.live now).expiresAt = some at_ := member
        rw [ZSet.live] at expiry
        split at expiry
        · cases expiry
        · rw [ZSet.live, if_pos ⟨at_, expiry, before⟩]
      rw [← keeps.scores t le, gone]
    · rw [ZSet.scores_trim, ZSet.scores_trim, here, ← later]
      rfl
  · intro e member
    have kept := List.mem_of_mem_filter member
    exact keeps.members e (live_entries_subset now key kept)

/-- An accepted call joins those that count. -/
theorem Keeps.add (keeps : Keeps windowMs members key accepted now)
    (past : ∀ a ∈ accepted, a ≤ now) {member : String} (new : member ∉ members) :
    Keeps windowMs (members ++ [member])
      ((((key.live now).zremrangebyscore 0 (now - windowMs)).zadd now member).pexpire now
        windowMs) (accepted ++ [now]) now := by
  have trimmed := keeps.trim
  have fresh : ∀ e ∈ ((key.live now).zremrangebyscore 0 (now - windowMs)).entries,
      e.1 ≠ member := fun e inside same => new (same ▸ trimmed.members e inside)
  have scores : ((((key.live now).zremrangebyscore 0 (now - windowMs)).zadd now member).pexpire
      now windowMs).scores = inside windowMs now accepted ++ [now] := by
    rw [← keeps.scores now le_rfl, ← ZSet.scores_zadd fresh]
    rfl
  constructor
  · intro t le
    rw [ZSet.live]
    split
    · -- the key has expired, and so has every call in it
      rename_i expired
      obtain ⟨at_, same, before⟩ := expired
      obtain rfl : now + windowMs = at_ := Option.some.inj same
      have none_ : inside windowMs t (accepted ++ [now]) = [] := by
        apply List.filter_eq_nil_iff.2
        intro a member
        have bound : a ≤ now := by
          rcases List.mem_append.1 member with old | here
          · exact past a old
          · exact (List.mem_singleton.1 here).le
        simp only [decide_eq_true_eq, not_lt]
        omega
      rw [none_]
      rfl
    · rw [ZSet.scores_trim, scores]
      change inside windowMs t (inside windowMs now accepted ++ [now]) = _
      rw [inside_append, inside_inside le, ← inside_append]
  · intro e inside
    rcases List.mem_append.1 inside with old | here
    · exact List.mem_append_left _ (trimmed.members e (List.mem_of_mem_filter old))
    · exact List.mem_append_right _ (List.mem_singleton.2 (by rw [List.mem_singleton.1 here]))

/-- **The shared part** accepts a call with room in its window, and refuses one without; the
delay it names ends when the oldest call leaves. -/
theorem windowStep_cases (positive : 1 ≤ limit)
    (keeps : Keeps windowMs members key accepted now) (past : ∀ a ∈ accepted, a ≤ now)
    {member : String} (new : member ∉ members) :
    (∃ key', windowStep limit windowMs now member key = (none, key') ∧
        (inside windowMs now accepted).length < limit ∧
        Keeps windowMs (members ++ [member]) key' (accepted ++ [now]) now) ∨
      ∃ retry key', windowStep limit windowMs now member key = (some retry, key') ∧
        limit ≤ (inside windowMs now accepted).length ∧
        (∃ oldest ∈ inside windowMs now accepted, retry = oldest + windowMs - now) ∧
        Keeps windowMs (members ++ [member]) key' accepted now := by
  have count : ((key.live now).zremrangebyscore 0 (now - windowMs)).zcard =
      (inside windowMs now accepted).length := by
    rw [← keeps.scores now le_rfl, ZSet.length_scores]
  rw [windowStep]
  simp only [count]
  by_cases full : limit ≤ (inside windowMs now accepted).length
  · rw [if_pos full]
    right
    have some_ : ((key.live now).zremrangebyscore 0 (now - windowMs)).scores ≠ [] := by
      rw [keeps.scores now le_rfl]
      exact List.ne_nil_of_length_pos (positive.trans full)
    obtain ⟨oldest, lowest⟩ := Option.isSome_iff_exists.1 (List.isSome_min?_of_ne_nil some_)
    have member_ : oldest ∈ inside windowMs now accepted := by
      rw [← keeps.scores now le_rfl]
      exact ZSet.lowestScore_mem lowest
    have counts : now < oldest + windowMs := by
      have := (List.mem_filter.1 member_).2
      simpa using this
    refine ⟨_, _, rfl, full, ⟨oldest, member_, ?_⟩,
      keeps.trim.wait le_rfl (List.subset_append_left _ _)⟩
    have found : ((key.live now).zremrangebyscore 0 (now - windowMs)).lowestScore = some oldest :=
      lowest
    rw [found, Option.getD_some]
    omega
  · rw [if_neg full]
    exact .inl ⟨_, rfl, Nat.lt_of_not_le full, keeps.add past new⟩

end Tozalist.Redis
