/-
# Tozalist.Theory.Chunked -- reading a list in chunks, and counting its repetitions

`slices size xs` is what a loop over `slice(start, start + size)` sees of a list.

A reader that collects items and hands them on `size` at a time has handed on
`flushed size xs` of the items `xs` it read and holds `pending size xs`.

An item may repeat one that was read before it.  At the time it is read, what it repeats
has been handed on, or is held in the same chunk.  `tally` counts the places of a list of
either kind; with the first occurrences they are all places (`tally_places`).
-/
import Tozalist.Theory.Memo

namespace Tozalist.Theory.Chunked

set_option autoImplicit false

universe u v

variable {κ : Type u}

/-! ## Chunks -/

/-- What was handed on after reading `xs`. -/
def flushed (size : ℕ) (xs : List κ) : List κ := xs.take (size * (xs.length / size))

/-- What is held after reading `xs`. -/
def pending (size : ℕ) (xs : List κ) : List κ := xs.drop (size * (xs.length / size))

theorem flushed_append_pending (size : ℕ) (xs : List κ) :
    flushed size xs ++ pending size xs = xs :=
  List.take_append_drop _ xs

theorem length_pending (size : ℕ) (xs : List κ) :
    (pending size xs).length = xs.length % size := by
  rw [pending, List.length_drop, Nat.mod_def]

@[simp] theorem flushed_nil (size : ℕ) : flushed size ([] : List κ) = [] := List.take_nil

@[simp] theorem pending_nil (size : ℕ) : pending size ([] : List κ) = [] := List.drop_nil

/-- An item that does not fill the chunk is held. -/
theorem concat_of_lt {size : ℕ} {xs : List κ} (room : (pending size xs).length + 1 < size)
    (x : κ) :
    flushed size (xs ++ [x]) = flushed size xs ∧
      pending size (xs ++ [x]) = pending size xs ++ [x] := by
  have within : size * (xs.length / size) ≤ xs.length := Nat.mul_div_le _ _
  have same : (xs ++ [x]).length / size = xs.length / size := by
    rw [List.length_append, List.length_singleton]
    apply Nat.succ_div_of_mod_ne_zero
    intro full
    rw [length_pending] at room
    rw [Nat.add_mod, Nat.mod_eq_of_lt (by omega : 1 < size), Nat.mod_eq_of_lt room] at full
    omega
  constructor
  · rw [flushed, same, List.take_append_of_le_length within, flushed]
  · rw [pending, same, List.drop_append_of_le_length within, pending]

/-- An item that fills the chunk hands everything on. -/
theorem concat_of_le {size : ℕ} {xs : List κ} (positive : 0 < size)
    (full : size ≤ (pending size xs).length + 1) (x : κ) :
    flushed size (xs ++ [x]) = xs ++ [x] ∧ pending size (xs ++ [x]) = [] := by
  have divides : size * ((xs ++ [x]).length / size) = (xs ++ [x]).length := by
    refine Nat.mul_div_cancel' (Nat.dvd_of_mod_eq_zero ?_)
    rw [length_pending] at full
    have below := Nat.mod_lt xs.length positive
    rw [List.length_append, List.length_singleton, ← Nat.mod_add_mod,
      show xs.length % size + 1 = size by omega, Nat.mod_self]
  constructor
  · rw [flushed, divides, List.take_length]
  · rw [pending, divides, List.drop_length]

/-! ## Slices -/

/-- `for (start = 0; start < length; start += size) slice(start, start + size)`. -/
def slices (size : ℕ) (xs : List κ) : List (List κ) :=
  (List.range ((xs.length + size - 1) / size)).map fun i => (xs.drop (i * size)).take size

/-- **The slices are the list.** -/
theorem mem_slices {size : ℕ} (positive : 0 < size) {xs : List κ} {x : κ} :
    (∃ slice ∈ slices size xs, x ∈ slice) ↔ x ∈ xs := by
  constructor
  · rintro ⟨slice, member, inside⟩
    obtain ⟨i, -, rfl⟩ := List.mem_map.1 member
    exact List.mem_of_mem_drop (List.mem_of_mem_take inside)
  · intro member
    obtain ⟨j, bound, rfl⟩ := List.mem_iff_getElem.1 member
    have within : j / size * size + j % size = j := Nat.div_add_mod' j size
    have left := Nat.mod_lt j positive
    refine ⟨(xs.drop (j / size * size)).take size, List.mem_map.2 ⟨j / size, ?_, rfl⟩, ?_⟩
    · rw [List.mem_range, Nat.div_lt_iff_lt_mul positive]
      have rounded : xs.length ≤ (xs.length + size - 1) / size * size := by
        have full := Nat.div_add_mod' (xs.length + size - 1) size
        have rest := Nat.mod_lt (xs.length + size - 1) positive
        omega
      omega
    · rw [List.mem_take_iff_getElem]
      refine ⟨j % size, ?_, ?_⟩
      · rw [List.length_drop]
        omega
      · rw [List.getElem_drop]
        congr 1

/-! ## Counting along a list -/

/-- Count the places of a list at which `p` holds, of what stands before and of what stands
there. -/
def tallyAfter (p : List κ → κ → Bool) (before : List κ) : List κ → ℕ
  | [] => 0
  | k :: ks => (if p before k then 1 else 0) + tallyAfter p (before ++ [k]) ks

def tally (p : List κ → κ → Bool) (ks : List κ) : ℕ := tallyAfter p [] ks

theorem tallyAfter_concat (p : List κ → κ → Bool) (before ks : List κ) (k : κ) :
    tallyAfter p before (ks ++ [k]) =
      tallyAfter p before ks + if p (before ++ ks) k then 1 else 0 := by
  induction ks generalizing before with
  | nil => simp [tallyAfter]
  | cons l ks ih =>
      simp only [List.cons_append, tallyAfter, ih, List.append_assoc, List.nil_append]
      omega

@[simp] theorem tally_nil (p : List κ → κ → Bool) : tally p [] = 0 := rfl

theorem tally_concat (p : List κ → κ → Bool) (ks : List κ) (k : κ) :
    tally p (ks ++ [k]) = tally p ks + if p ks k then 1 else 0 := by
  rw [tally, tallyAfter_concat, List.nil_append, tally]

/-- `p` holds at every place, of what stands before and of what stands there. -/
def Everywhere (p : List κ → κ → Prop) (ks : List κ) : Prop :=
  ∀ read k rest, ks = read ++ k :: rest → p read k

theorem everywhere_nil (p : List κ → κ → Prop) : Everywhere p [] := by
  intro read k rest eq
  cases read <;> cases eq

theorem everywhere_concat {p : List κ → κ → Prop} {ks : List κ} {k : κ} :
    Everywhere p (ks ++ [k]) ↔ Everywhere p ks ∧ p ks k := by
  constructor
  · intro holds
    refine ⟨fun read l rest eq => holds read l (rest ++ [k]) ?_, holds ks k [] rfl⟩
    rw [eq, List.append_assoc, List.cons_append]
  · rintro ⟨before, last⟩ read l rest eq
    rcases List.eq_nil_or_concat rest with rfl | ⟨rest, m, rfl⟩
    · obtain ⟨rfl, same⟩ := List.append_inj' eq rfl
      obtain rfl := List.head_eq_of_cons_eq same
      exact last
    · rw [List.concat_eq_append, ← List.cons_append, ← List.append_assoc] at eq
      exact before read l rest (List.append_inj' eq rfl).1

/-- Nothing of a kind is counted, when no place is of the kind. -/
theorem tally_eq_zero_iff {p : List κ → κ → Bool} {ks : List κ} :
    tally p ks = 0 ↔ Everywhere (fun before k => p before k = false) ks := by
  induction ks using List.reverseRecOn with
  | nil => exact iff_of_true rfl (everywhere_nil _)
  | append_singleton ks k ih =>
      rw [tally_concat, Nat.add_eq_zero_iff, ih, everywhere_concat]
      apply and_congr_right
      intro _
      cases p ks k <;> simp

variable [DecidableEq κ]

/-- A first occurrence. -/
def isFirst (before : List κ) (k : κ) : Bool := k ∉ before

/-- It repeats an item that was handed on. -/
def repeatsFlushed (size : ℕ) (before : List κ) (k : κ) : Bool := k ∈ flushed size before

/-- It repeats items of its own chunk only. -/
def repeatsPending (size : ℕ) (before : List κ) (k : κ) : Bool :=
  k ∈ before ∧ k ∉ flushed size before

/-- **Every place** is a first occurrence, or repeats what was handed on, or repeats what is
held. -/
theorem tally_places (size : ℕ) (ks : List κ) :
    tally isFirst ks + tally (repeatsFlushed size) ks + tally (repeatsPending size) ks =
      ks.length := by
  induction ks using List.reverseRecOn with
  | nil => rfl
  | append_singleton ks k ih =>
      have inside : k ∈ flushed size ks → k ∈ ks := List.mem_of_mem_take
      simp only [tally_concat, isFirst, repeatsFlushed, repeatsPending, decide_eq_true_eq,
        List.length_append, List.length_singleton]
      by_cases met : k ∈ ks <;> by_cases gone : k ∈ flushed size ks
      · simp only [met, gone, not_true_eq_false, and_false, if_false, if_true]
        omega
      · simp only [met, gone, not_true_eq_false, not_false_eq_true, and_self, if_false, if_true]
        omega
      · exact absurd (inside gone) met
      · simp only [met, gone, not_false_eq_true, false_and, if_false, if_true]
        omega

/-- A memo has as many answers as there are first occurrences. -/
theorem length_answers {α : Type v} (answer : List (κ × α) → κ → α) (ks : List κ) :
    (Memo.answers answer ks).length = tally isFirst ks := by
  induction ks using List.reverseRecOn with
  | nil => rfl
  | append_singleton ks k ih =>
      have last : Memo.answers answer (ks ++ [k]) =
          Memo.remember answer (Memo.answers answer ks) k := Memo.rememberAll_append ks [k]
      rw [tally_concat, ← ih, last]
      by_cases old : k ∈ ks
      · rw [Memo.remember_of_mem (Memo.mem_keys_answers.2 old),
          if_neg (by simpa [isFirst] using old)]
        rfl
      · rw [Memo.remember_of_not_mem fun member => old (Memo.mem_keys_answers.1 member),
          if_pos (by simpa [isFirst] using old), List.length_append]
        rfl

/-! ## Chunks that hold no repetition -/

/-- In chunks of one, nothing is held. -/
theorem tally_repeatsPending_one (ks : List κ) : tally (repeatsPending 1) ks = 0 := by
  apply tally_eq_zero_iff.2
  intro read k rest _
  have all : flushed 1 read = read := by rw [flushed, Nat.div_one, Nat.one_mul, List.take_length]
  apply decide_eq_false
  intro both
  rw [all] at both
  exact both.2 both.1

/-- In one chunk, everything is held. -/
theorem tally_repeatsPending_of_length_lt {size : ℕ} {ks : List κ} (room : ks.length < size) :
    tally (repeatsPending size) ks = 0 ↔ ks.Nodup := by
  induction ks using List.reverseRecOn with
  | nil => exact iff_of_true rfl List.nodup_nil
  | append_singleton ks k ih =>
      rw [List.length_append, List.length_singleton] at room
      have held : flushed size ks = [] := by
        rw [flushed, Nat.div_eq_of_lt (by omega), Nat.mul_zero, List.take_zero]
      have shape : (ks ++ [k]).Nodup ↔ ks.Nodup ∧ k ∉ ks := by
        rw [← List.concat_eq_append, List.nodup_concat]
        exact and_comm
      rw [tally_concat, Nat.add_eq_zero_iff, ih (by omega), shape, repeatsPending, held]
      apply and_congr_right
      intro _
      by_cases met : k ∈ ks <;> simp [met]

/-- A list without repetitions has none of its own chunk. -/
theorem tally_repeatsPending_of_nodup {ks : List κ} (nodup : ks.Nodup) (size : ℕ) :
    tally (repeatsPending size) ks = 0 := by
  refine tally_eq_zero_iff.2 fun read k rest eq => decide_eq_false fun both => ?_
  rw [eq] at nodup
  exact List.disjoint_of_nodup_append nodup both.1 List.mem_cons_self

end Tozalist.Theory.Chunked
